import HowBigDemo.Bridge.QueryLoops

namespace HowBigDemo
namespace Bridge

open Library

/-!
# What the query loop reads of a list of pairs

A page joins keys and values with `=` and the pairs with `&`.  Reading the
query should give every key the decoding of its last value.  The loop splits
a segment at every `=` and stores only the second component, so that a value
with an `=` of its own is cut there.  `readParameters_pairs_iff` says which
lists of pairs are read as they were written.
-/

/-- A key and a value as they stand in a query, with what the value decodes
to. -/
structure QueryPair where
  key : NSString
  value : NSString
  decoded : NSString
  keyPlain : ampersand ∉ key ∧ equalsSign ∉ key ∧ 37 ∉ key
  valuePlain : ampersand ∉ value
  valueDecodes : Decodes value decoded

/-- A segment of a query: a pair, or a text without an `=`. -/
inductive QuerySegment
  | keyed (pair : QueryPair)
  | bare (content : NSString) (plain : ampersand ∉ content ∧ equalsSign ∉ content)

namespace QuerySegment

def written : QuerySegment -> NSString
  | .keyed pair => pair.key ++ equalsSign :: pair.value
  | .bare content _ => content

/-- The pair that a segment has for the key. -/
def pairFor (key : NSString) : QuerySegment -> Option QueryPair
  | .keyed pair => if key = pair.key then some pair else none
  | .bare _ _ => none

end QuerySegment

/-- The query that joins the segments. -/
def joined (segments : List QuerySegment) : NSString :=
  [ampersand].intercalate (segments.map QuerySegment.written)

/-- The last pair for the key. -/
def lastPair (key : NSString) : List QuerySegment -> Option QueryPair
  | [] => none
  | segment :: rest => (lastPair key rest).or (segment.pairFor key)

/-- Every key of a pair has what the whole value of its last pair decodes to,
and no other key has anything. -/
def writtenParameters (segments : List QuerySegment) : NSDictionary :=
  fun key => (lastPair key segments).map QueryPair.decoded

/-! ## Splitting -/

theorem QuerySegment.ampersand_notMem_written (segment : QuerySegment) : ampersand ∉ segment.written := by
  cases segment with
  | bare content plain => exact plain.1
  | keyed pair =>
      intro listed
      rcases List.mem_append.mp listed with inKey | later
      · exact pair.keyPlain.1 inKey
      · rcases List.mem_cons.mp later with isEquals | inValue
        · exact absurd isEquals (by decide)
        · exact pair.valuePlain inValue

/-- The segments of a joined query are those that were joined. -/
theorem componentsSeparatedBy_joined {segments : List QuerySegment} (nonempty : segments ≠ []) :
    componentsSeparatedBy ampersand (some (joined segments)) = segments.map QuerySegment.written := by
  apply List.splitOn_intercalate
  · intro content listed
    rcases List.mem_map.mp listed with ⟨segment, _, rfl⟩
    exact segment.ampersand_notMem_written
  · intro empty
    exact nonempty (List.map_eq_nil_iff.mp empty)

theorem isSeparator_equalsSign : IsSeparator equalsSign :=
  ⟨by decide, by decide⟩

namespace QueryPair

/-- The part of the value before its first `=`. -/
def front (pair : QueryPair) : NSString :=
  (componentsSeparatedBy equalsSign (some pair.value)).headD []

/-- What the loop stores for the pair. -/
def stored (pair : QueryPair) : NSString :=
  (replacePercentEscapes pair.front).getD []

theorem components_written (pair : QueryPair) :
    Exists fun others =>
      componentsSeparatedBy equalsSign (some (pair.key ++ equalsSign :: pair.value)) =
        pair.key :: pair.front :: others := by
  have atKey : componentsSeparatedBy equalsSign (some (pair.key ++ equalsSign :: pair.value)) =
      pair.key :: componentsSeparatedBy equalsSign (some pair.value) :=
    List.splitOn_append_cons_self_of_not_mem pair.keyPlain.2.1 pair.value
  have hasFront : componentsSeparatedBy equalsSign (some pair.value) ≠ [] :=
    List.splitOn_ne_nil equalsSign pair.value
  unfold front
  rw [atKey]
  revert hasFront
  cases componentsSeparatedBy equalsSign (some pair.value) with
  | nil => exact fun absurdity => absurd rfl absurdity
  | cons front others => exact fun _ => ⟨others, rfl⟩

/-- The part before the first `=` decodes, to the decoding of the whole value
exactly if there is no `=`. -/
theorem stored_spec (pair : QueryPair) :
    replacePercentEscapes pair.front = some pair.stored ∧
      (pair.stored = pair.decoded ↔ equalsSign ∉ pair.value) := by
  have whole := (replacePercentEscapes_eq_some_iff pair.value pair.decoded).mpr pair.valueDecodes
  by_cases cut : equalsSign ∈ pair.value
  · rcases List.eq_append_cons_of_mem cut with ⟨front, tail, same, notBefore⟩
    have frontHere : pair.front = front := by
      unfold QueryPair.front
      rw [same]
      exact congrArg (List.headD · []) (List.splitOn_append_cons_self_of_not_mem notBefore tail)
    rw [same, replacePercentEscapes_separated isSeparator_equalsSign] at whole
    rcases Option.bind_eq_some_iff.mp whole with ⟨decodedFront, frontDecodes, continues⟩
    rcases Option.map_eq_some_iff.mp continues with ⟨decodedTail, _, decodedHere⟩
    have storedHere : pair.stored = decodedFront := by
      unfold stored
      rw [frontHere, frontDecodes]
      rfl
    rw [storedHere, frontHere]
    refine ⟨frontDecodes, ?_⟩
    constructor
    · intro equal
      have shorter := congrArg List.length (equal.trans decodedHere.symm)
      rw [List.length_append, List.length_cons] at shorter
      omega
    · intro absent
      exact absurd cut absent
  · have frontHere : pair.front = pair.value := by
      unfold front
      exact congrArg (List.headD · []) (List.splitOn_eq_singleton cut)
    have storedHere : pair.stored = pair.decoded := by
      unfold stored
      rw [frontHere, whole]
      rfl
    rw [storedHere, frontHere]
    exact ⟨whole, fun _ => cut, fun _ => rfl⟩

end QueryPair

/-! ## The loop -/

/-- A round stores what the loop reads of a pair, and skips other segments. -/
theorem storeSegment_written (tempDic : NSDictionary) (segment : QuerySegment) :
    storeSegment tempDic segment.written =
      .ok (fun key => ((segment.pairFor key).map QueryPair.stored).or (tempDic key)) := by
  unfold storeSegment
  cases segment with
  | bare content plain =>
      have components : componentsSeparatedBy equalsSign
          (some (QuerySegment.bare content plain).written) = [content] :=
        List.splitOn_eq_singleton plain.2
      rw [components]
      rfl
  | keyed pair =>
      have written : (QuerySegment.keyed pair).written = pair.key ++ equalsSign :: pair.value := rfl
      rcases pair.components_written with ⟨others, components⟩
      rw [written, components]
      change setObject tempDic (replacePercentEscapes pair.front) pair.key = _
      rw [pair.stored_spec.1]
      apply congrArg Except.ok
      funext key
      change (if key = pair.key then _ else _) =
        (Option.map _ (if key = pair.key then _ else _)).or _
      by_cases sameKey : key = pair.key
      · rw [if_pos sameKey, if_pos sameKey]
        rfl
      · rw [if_neg sameKey, if_neg sameKey]
        rfl

/-- The loop stores for each key what it reads of the last pair. -/
theorem readSegments_written (tempDic : NSDictionary) (segments : List QuerySegment) :
    readSegments tempDic (segments.map QuerySegment.written) =
      .ok (fun key => ((lastPair key segments).map QueryPair.stored).or (tempDic key)) := by
  induction segments generalizing tempDic with
  | nil => rfl
  | cons segment rest inductionHypothesis =>
      rw [List.map_cons, readSegments_cons, storeSegment_written]
      change readSegments _ (rest.map QuerySegment.written) = _
      rw [inductionHypothesis]
      apply congrArg Except.ok
      funext key
      rw [lastPair]
      cases lastPair key rest <;> rfl

theorem readParameters_joined (segments : List QuerySegment) :
    readParameters (some (joined segments)) =
      .ok (fun key => (lastPair key segments).map QueryPair.stored) := by
  cases segments with
  | nil => rfl
  | cons segment rest =>
      have nonempty : segment :: rest ≠ [] := List.cons_ne_nil segment rest
      rw [readParameters, componentsSeparatedBy_joined nonempty, readSegments_written]
      apply congrArg Except.ok
      funext key
      exact Option.or_none

/-- The last value of every key has no `=` of its own. -/
def LastValuesUncut (segments : List QuerySegment) : Prop :=
  forall key pair, lastPair key segments = some pair -> equalsSign ∉ pair.value

/-- For every list of segments, the loop reads the pairs as they were written
exactly if the last value of every key has no `=`. -/
theorem readParameters_pairs_iff (segments : List QuerySegment) :
    readParameters (some (joined segments)) = .ok (writtenParameters segments) ↔
      LastValuesUncut segments := by
  rw [readParameters_joined, Except.ok.injEq]
  constructor
  · intro same key pair isLast
    have atKey := congrFun same key
    change (lastPair key segments).map _ = (lastPair key segments).map _ at atKey
    rw [isLast] at atKey
    exact pair.stored_spec.2.mp (Option.some.inj atKey)
  · intro uncut
    funext key
    change (lastPair key segments).map _ = (lastPair key segments).map _
    cases isLast : lastPair key segments with
    | none => rfl
    | some pair => exact congrArg some (pair.stored_spec.2.mpr (uncut key pair isLast))

/-- A link with a query of its own, as the page would share it. -/
def linkPair : QueryPair where
  key := text "url"
  value := text "http://host/p?a=b"
  decoded := text "http://host/p?a=b"
  keyPlain := by decide +kernel
  valuePlain := by decide +kernel
  valueDecodes := (replacePercentEscapes_eq_some_iff _ _).mp (by decide +kernel)

/-- The shared link loses what follows its `=`. -/
theorem link_is_cut :
    ¬ readParameters (some (joined [.keyed linkPair])) = .ok (writtenParameters [.keyed linkPair]) := by
  rw [readParameters_joined, Except.ok.injEq]
  intro same
  have atLink := congrFun same (text "url")
  change some linkPair.stored = some linkPair.decoded at atLink
  have differ : linkPair.stored ≠ linkPair.decoded := by decide +kernel
  exact differ (Option.some.inj atLink)

end Bridge
end HowBigDemo
