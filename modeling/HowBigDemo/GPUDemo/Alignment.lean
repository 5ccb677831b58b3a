import HowBigDemo.GPUDemo.VideoManagerCenter

namespace HowBigDemo
namespace GPUDemo

open Library

/-!
# Alignment of sound and picture in a merge

`compressionSession:completeHandler:` moves one running time along for the
audio and the video track of its composition.  So each clip starts on both
tracks where the clips before it end, whichever insertions succeed.

A clip may come without sound.  The loop tests for a nil audio track, but it
has already taken element zero of an array that is empty then, and this
raises.  `buildsAligned_iff` says that this is the only way in which a merge
of playable clips goes wrong.
-/

/-- The sum of the durations of the clips before clip `i`. -/
def startTime (clips : List AVURLAsset) (i : Nat) : CMTime :=
  ((clips.take i).map AVURLAsset.duration).sum

def totalDuration (clips : List AVURLAsset) : CMTime :=
  (clips.map AVURLAsset.duration).sum

def AVMutableComposition.track (composition : AVMutableComposition) : AVMediaType -> List Segment
  | .audio => composition.audioTrack
  | .video => composition.videoTrack

def Segment.endTime (segment : Segment) : CMTime :=
  segment.atTime + segment.duration

/-- The first track of the clip over its full duration, starting where the
clips before it end. -/
def clipSegment (clips : List AVURLAsset) (mediaType : AVMediaType) (numbered : AVURLAsset × Nat) :
    Segment :=
  ⟨⟨numbered.1.footage, mediaType, 0⟩, numbered.1.duration, startTime clips numbered.2⟩

/-- The insertion of the clip succeeds. -/
def isInserted (insertions : Insertions) (mediaType : AVMediaType) (numbered : AVURLAsset × Nat) :
    Bool :=
  insertions numbered.2 mediaType

/-- The clip has a track of the type and its insertion succeeds. -/
def isPlaced (insertions : Insertions) (mediaType : AVMediaType) (numbered : AVURLAsset × Nat) :
    Bool :=
  isInserted insertions mediaType numbered && decide (0 < numbered.1.trackCount mediaType)

/-- The segments that a track should hold, in list order. -/
def placedSegments (insertions : Insertions) (mediaType : AVMediaType) (clips : List AVURLAsset) :
    List Segment :=
  (clips.zipIdx.filter (isPlaced insertions mediaType)).map (clipSegment clips mediaType)

/-- A composition in which sound and picture of the clips are aligned. -/
structure Aligned (insertions : Insertions) (clips : List AVURLAsset)
    (built : AVMutableComposition) : Prop where
  /-- Each track holds the clips whose insertion succeeded, each over its full
  duration at the sum of the durations before it. -/
  placed : forall mediaType, built.track mediaType = placedSegments insertions mediaType clips
  /-- The ranges on a track are disjoint and in list order. -/
  ordered : forall mediaType,
    (built.track mediaType).Pairwise fun earlier later => earlier.endTime ≤ later.atTime
  /-- The sound and the picture of a clip start together. -/
  together : forall i clip, clips[i]? = some clip ->
    (forall mediaType, isPlaced insertions mediaType (clip, i) = true) ->
    Exists fun sound => Exists fun picture =>
      sound ∈ built.track .audio ∧ picture ∈ built.track .video ∧
      sound.track.footage = clip.footage ∧ picture.track.footage = clip.footage ∧
      sound.atTime = picture.atTime
  /-- When the last clip is inserted into a track, the track ends at the sum
  of all durations. -/
  ending : forall mediaType earlier clip, clips = earlier ++ [clip] ->
    isPlaced insertions mediaType (clip, earlier.length) = true ->
    ((built.track mediaType).getLast?.map Segment.endTime) = some (totalDuration clips)

/-- What a clip must be for a merge: it has a duration and a picture. -/
structure Playable (clip : AVURLAsset) : Prop where
  duration_nonneg : 0 ≤ clip.duration
  hasVideo : 0 < clip.videoTracks

/-! ## The segments of the loop -/

theorem startTime_succ (clip : AVURLAsset) (rest : List AVURLAsset) (i : Nat) :
    startTime (clip :: rest) (i + 1) = clip.duration + startTime rest i :=
  List.sum_cons

theorem objectAtIndex_zero_isOk_iff (asset : AVURLAsset) (mediaType : AVMediaType) :
    (objectAtIndex (asset.tracksWithMediaType mediaType) 0).isOk = true ↔
      0 < asset.trackCount mediaType := by
  unfold objectAtIndex AVURLAsset.tracksWithMediaType
  cases count : asset.trackCount mediaType with
  | zero =>
      constructor
      · intro impossible
        cases impossible
      · intro impossible
        cases impossible
  | succ more =>
      rw [List.range_succ_eq_map]
      exact ⟨fun _ => Nat.succ_pos more, fun _ => rfl⟩

theorem isOk_iff {Result : Type u} (outcome : Except NSException Result) :
    outcome.isOk = true ↔ Exists fun result => outcome = .ok result := by
  cases outcome with
  | error exception =>
      constructor
      · intro impossible
        cases impossible
      · rintro ⟨_, impossible⟩
        cases impossible
  | ok result => exact ⟨fun _ => ⟨result, rfl⟩, fun _ => rfl⟩

/-- The loop raises exactly when a clip lacks a picture or lacks sound. -/
theorem compositionLoop_isOk_iff (insertions : Insertions) (i : Nat) (assets : List AVURLAsset)
    (lastTime : CMTime) (mixComposition : AVMutableComposition) :
    (compositionLoop insertions i assets lastTime mixComposition).isOk = true ↔
      forall asset, asset ∈ assets -> forall mediaType, 0 < asset.trackCount mediaType := by
  induction assets generalizing i lastTime mixComposition with
  | nil => exact ⟨fun _ _ listed => absurd listed List.not_mem_nil, fun _ => rfl⟩
  | cons asset rest inductionHypothesis =>
      have video := objectAtIndex_zero_isOk_iff asset .video
      have audio := objectAtIndex_zero_isOk_iff asset .audio
      rw [List.forall_mem_cons, compositionLoop]
      cases videoFound : objectAtIndex (asset.tracksWithMediaType .video) 0 with
      | error exception =>
          rw [videoFound] at video
          constructor
          · intro impossible
            cases impossible
          · intro all
            cases video.mpr (all.1 .video)
      | ok assetTrack =>
          rw [videoFound] at video
          cases audioFound : objectAtIndex (asset.tracksWithMediaType .audio) 0 with
          | error exception =>
              rw [audioFound] at audio
              constructor
              · intro impossible
                cases impossible
              · intro all
                cases audio.mpr (all.1 .audio)
          | ok audioAsset =>
              rw [audioFound] at audio
              refine (inductionHypothesis _ _ _).trans ?_
              constructor
              · intro later
                refine ⟨?_, later⟩
                intro mediaType
                cases mediaType with
                | video => exact video.mp rfl
                | audio => exact audio.mp rfl
              · intro all
                exact all.2

/-- The segments that the loop inserts into a track are those of the clips
whose insertion succeeds, each at the sum of the durations before it. -/
theorem insertedSegments_eq_map (insertions : Insertions) (mediaType : AVMediaType) (i : Nat)
    (start : CMTime) (clips : List AVURLAsset) :
    insertedSegments insertions mediaType i start clips =
      ((clips.zipIdx i).filter (isInserted insertions mediaType)).map fun numbered =>
        ⟨⟨numbered.1.footage, mediaType, 0⟩, numbered.1.duration,
          start + startTime clips (numbered.2 - i)⟩ := by
  induction clips generalizing i start with
  | nil => rfl
  | cons clip rest inductionHypothesis =>
      have atRest : insertedSegments insertions mediaType (i + 1) (start + clip.duration) rest =
          ((rest.zipIdx (i + 1)).filter (isInserted insertions mediaType)).map
            fun numbered => ⟨⟨numbered.1.footage, mediaType, 0⟩, numbered.1.duration,
              start + startTime (clip :: rest) (numbered.2 - i)⟩ := by
        rw [inductionHypothesis]
        apply List.map_congr_left
        intro numbered listed
        have number := List.le_snd_of_mem_zipIdx (List.mem_filter.mp listed).1
        have next : numbered.2 - i = numbered.2 - (i + 1) + 1 := by omega
        rw [next, startTime_succ, add_assoc]
      unfold insertedSegments
      rw [atRest, List.zipIdx_cons, insertTimeRange]
      cases inserted : insertions i mediaType with
      | false =>
          have dropped : ¬ isInserted insertions mediaType (clip, i) = true := by
            unfold isInserted
            rw [inserted]
            exact Bool.false_ne_true
          rw [List.filter_cons_of_neg dropped]
          rfl
      | true =>
          have kept : isInserted insertions mediaType (clip, i) = true := inserted
          have atStart : start + startTime (clip :: rest) 0 = start := add_zero start
          rw [List.filter_cons_of_pos kept, List.map_cons, if_pos rfl, Nat.sub_self, atStart]
          rfl

theorem atTime_of_mem_insertTimeRange {succeeds : Bool} {duration atTime : CMTime}
    {track : AVAssetTrack} {segment : Segment}
    (listed : segment ∈ insertTimeRange succeeds [] duration track atTime) :
    segment.atTime = atTime := by
  cases succeeds with
  | false => cases listed
  | true =>
      change segment ∈ [_] at listed
      rw [List.mem_singleton.mp listed]

/-- With durations that are not negative, nothing is inserted before the
running time. -/
theorem le_atTime_of_mem_insertedSegments {insertions : Insertions} {mediaType : AVMediaType}
    {i : Nat} {start : CMTime} {clips : List AVURLAsset}
    (nonneg : forall clip, clip ∈ clips -> 0 ≤ clip.duration) {segment : Segment}
    (listed : segment ∈ insertedSegments insertions mediaType i start clips) :
    start ≤ segment.atTime := by
  induction clips generalizing i start with
  | nil => cases listed
  | cons clip rest inductionHypothesis =>
      rcases List.forall_mem_cons.mp nonneg with ⟨clipNonneg, restNonneg⟩
      rcases List.mem_append.mp listed with first | later
      · exact le_of_eq (atTime_of_mem_insertTimeRange first).symm
      · have afterClip := inductionHypothesis restNonneg later
        exact le_trans (le_add_of_nonneg_right clipNonneg) afterClip

/-- Every insertion takes place at or after the end of what is on the track. -/
theorem insertedSegments_ordered {insertions : Insertions} {mediaType : AVMediaType} {i : Nat}
    {start : CMTime} {clips : List AVURLAsset}
    (nonneg : forall clip, clip ∈ clips -> 0 ≤ clip.duration) :
    (insertedSegments insertions mediaType i start clips).Pairwise
      fun earlier later => earlier.endTime ≤ later.atTime := by
  induction clips generalizing i start with
  | nil => exact List.Pairwise.nil
  | cons clip rest inductionHypothesis =>
      rcases List.forall_mem_cons.mp nonneg with ⟨_, restNonneg⟩
      unfold insertedSegments insertTimeRange
      cases insertions i mediaType with
      | false => exact inductionHypothesis restNonneg
      | true =>
          refine List.pairwise_cons.mpr ⟨?_, inductionHypothesis restNonneg⟩
          intro later listed
          exact le_atTime_of_mem_insertedSegments restNonneg listed

theorem insertedSegments_append (insertions : Insertions) (mediaType : AVMediaType) (i : Nat)
    (start : CMTime) (earlier : List AVURLAsset) (clip : AVURLAsset) :
    insertedSegments insertions mediaType i start (earlier ++ [clip]) =
      insertedSegments insertions mediaType i start earlier ++
        insertTimeRange (insertions (i + earlier.length) mediaType) [] clip.duration
          ⟨clip.footage, mediaType, 0⟩ (start + totalDuration earlier) := by
  induction earlier generalizing i start with
  | nil =>
      have atStart : start + totalDuration [] = start := add_zero start
      rw [atStart]
      exact List.append_nil _
  | cons first rest inductionHypothesis =>
      have total : start + totalDuration (first :: rest) = start + first.duration + totalDuration rest := by
        unfold totalDuration
        rw [List.map_cons, List.sum_cons, add_assoc]
      have number : i + (first :: rest).length = i + 1 + rest.length := by
        rw [List.length_cons]
        omega
      rw [List.cons_append, insertedSegments, insertedSegments, inductionHypothesis, total, number,
        List.append_assoc]

/-! ## When a merge is aligned -/

/-- A composition built from clips with sound and picture is aligned. -/
theorem aligned_of_ok {insertions : Insertions} {clips : List AVURLAsset}
    {built : AVMutableComposition} (playable : forall clip, clip ∈ clips -> Playable clip)
    (ok : composition insertions clips = .ok built) : Aligned insertions clips built := by
  have tracks := (compositionLoop_isOk_iff insertions 0 clips 0 ⟨[], []⟩).mp
    ((isOk_iff _).mpr ⟨built, ok⟩)
  have nonneg : forall clip, clip ∈ clips -> 0 ≤ clip.duration :=
    fun clip listed => (playable clip listed).duration_nonneg
  have onTrack (mediaType : AVMediaType) :
      built.track mediaType = insertedSegments insertions mediaType 0 0 clips := by
    rw [compositionLoop_eq_ok ok]
    cases mediaType <;> rfl
  have placed (mediaType : AVMediaType) :
      built.track mediaType = placedSegments insertions mediaType clips := by
    rw [onTrack, insertedSegments_eq_map, placedSegments]
    have sameClips : (clips.zipIdx.filter (isInserted insertions mediaType)) =
        clips.zipIdx.filter (isPlaced insertions mediaType) := by
      apply List.filter_congr
      intro numbered listed
      have hasTrack := tracks numbered.1 (List.fst_mem_of_mem_zipIdx listed) mediaType
      unfold isPlaced
      rw [decide_eq_true hasTrack, Bool.and_true]
    rw [sameClips]
    apply List.map_congr_left
    intro numbered _
    rw [clipSegment, zero_add, Nat.sub_zero]
  refine ⟨placed, ?_, ?_, ?_⟩
  · intro mediaType
    rw [onTrack]
    exact insertedSegments_ordered nonneg
  · intro i clip atPlace inserted
    have listed (mediaType : AVMediaType) :
        clipSegment clips mediaType (clip, i) ∈ built.track mediaType := by
      rw [placed]
      exact List.mem_map_of_mem
        (List.mem_filter.mpr ⟨List.mem_zipIdx_iff_getElem?.mpr atPlace, inserted mediaType⟩)
    exact ⟨clipSegment clips .audio (clip, i), clipSegment clips .video (clip, i), listed .audio,
      listed .video, rfl, rfl, rfl⟩
  · intro mediaType earlier clip same inserted
    have succeeds : insertions (0 + earlier.length) mediaType = true := by
      rw [Nat.zero_add]
      exact (Bool.and_eq_true_iff.mp inserted).1
    rw [onTrack, same, insertedSegments_append, succeeds, insertTimeRange, if_pos rfl,
      List.nil_append, List.getLast?_concat]
    apply congrArg some
    unfold Segment.endTime totalDuration
    rw [List.map_append, List.sum_append, zero_add]
    exact congrArg _ (add_zero _).symm

/-- The merge of the files builds its composition without raising, and the
composition is aligned. -/
def BuildsAligned (insertions : Insertions) (random : Fin 1000) (documents : Documents)
    (fileURLs : List NSURL) : Prop :=
  Exists fun exporter =>
    VideoManagerCenter.compressionSession insertions random documents fileURLs = .ok exporter ∧
      Aligned insertions (fileURLs.map (assetAt documents)) exporter.asset

/-- A merge of playable clips is built and aligned exactly if every clip has
sound. -/
theorem buildsAligned_iff (insertions : Insertions) (random : Fin 1000) (documents : Documents)
    (fileURLs : List NSURL)
    (playable : forall url, url ∈ fileURLs -> Playable (assetAt documents url)) :
    BuildsAligned insertions random documents fileURLs ↔
      forall url, url ∈ fileURLs -> 0 < (assetAt documents url).audioTracks := by
  have built := compositionLoop_isOk_iff insertions 0 (fileURLs.map (assetAt documents)) 0 ⟨[], []⟩
  rw [isOk_iff, List.forall_mem_map] at built
  have clipsPlayable := List.forall_mem_map.mpr playable
  constructor
  · rintro ⟨exporter, ok, _⟩ url listed
    unfold VideoManagerCenter.compressionSession at ok
    cases loop : composition insertions (fileURLs.map (assetAt documents)) with
    | error exception =>
        rw [loop] at ok
        cases ok
    | ok mixComposition => exact built.mp ⟨mixComposition, loop⟩ url listed .audio
  · intro sound
    have tracks : forall url, url ∈ fileURLs ->
        forall mediaType, 0 < (assetAt documents url).trackCount mediaType := by
      intro url listed mediaType
      cases mediaType with
      | video => exact (playable url listed).hasVideo
      | audio => exact sound url listed
    rcases built.mpr tracks with ⟨mixComposition, loop⟩
    refine ⟨⟨mixComposition, [finalVideo random]⟩, ?_, aligned_of_ok clipsPlayable loop⟩
    unfold VideoManagerCenter.compressionSession
    change composition insertions (fileURLs.map (assetAt documents)) = _ at loop
    rw [loop]

/-- Two clips of three and two seconds, the second one with sound or without. -/
def twoClips (audioTracks : Nat) : Documents :=
  (FileTree.empty.create (liveMovied 0) (.clip ⟨1, 3, 1, 1⟩)).create (liveMovied 1)
    (.clip ⟨2, 2, 1, audioTracks⟩)

theorem twoClips_playable (audioTracks : Nat) :
    forall url, url ∈ [[liveMovied 0], [liveMovied 1]] ->
      Playable (assetAt (twoClips audioTracks) url) := by
  have first : assetAt (twoClips audioTracks) [liveMovied 0] = ⟨1, 3, 1, 1⟩ := rfl
  have second : assetAt (twoClips audioTracks) [liveMovied 1] = ⟨2, 2, 1, audioTracks⟩ := rfl
  intro url listed
  rcases List.mem_cons.mp listed with rfl | later
  · rw [first]
    exact ⟨(by decide : (0 : CMTime) ≤ 3), Nat.one_pos⟩
  · rw [List.mem_singleton.mp later, second]
    exact ⟨(by decide : (0 : CMTime) ≤ 2), Nat.one_pos⟩

/-- Two clips with sound are aligned, also if the first insertion fails. -/
theorem clips_with_sound_aligned :
    BuildsAligned (fun i _ => decide (i ≠ 0)) 7 (twoClips 1) [[liveMovied 0], [liveMovied 1]] := by
  refine (buildsAligned_iff _ 7 (twoClips 1) _ (twoClips_playable 1)).mpr ?_
  intro url listed
  rcases List.mem_cons.mp listed with rfl | later
  · exact Nat.one_pos
  · rw [List.mem_singleton.mp later]
    exact Nat.one_pos

/-- A playable clip without sound makes the merge raise. -/
theorem silent_clip_raises :
    (forall url, url ∈ [[liveMovied 0], [liveMovied 1]] -> Playable (assetAt (twoClips 0) url)) ∧
      ¬ BuildsAligned (fun _ _ => true) 7 (twoClips 0) [[liveMovied 0], [liveMovied 1]] := by
  refine ⟨twoClips_playable 0, ?_⟩
  rintro ⟨exporter, ok, _⟩
  have raises : VideoManagerCenter.compressionSession (fun _ _ => true) 7 (twoClips 0)
      [[liveMovied 0], [liveMovied 1]] = .error .rangeException := rfl
  rw [raises] at ok
  cases ok

end GPUDemo
end HowBigDemo
