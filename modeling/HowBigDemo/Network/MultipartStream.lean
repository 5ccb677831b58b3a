import HowBigDemo.Library.ByteSource
import HowBigDemo.Network.MultipartBody

namespace HowBigDemo
namespace Network
namespace AFNetworking

open Library

/-!
# The body stream of an upload

`AFMultipartBodyStream` reads its parts one after the other.  The loading
system opens it, reads it in pieces of any size and closes it, and may open
it again.  From outside it should be one source of bytes: neither the phases
of the parts nor the places where they meet can be seen.  Where the stream
of a part fails, the read ends and the next one goes on with the next part;
what the failing part has copied in that read is lost.
-/

/-! ## The stream of all parts -/

structure AFMultipartBodyStream where
  httpBodyParts : List AFHTTPBodyPart
  httpBodyPartEnumerator : Option Nat
  currentHTTPBodyPart : Option Nat
  streamStatus : NSStreamStatus
  streamError : Option NSError
  numberOfBytesInPacket : Nat
  deriving DecidableEq

/-- `setInitialAndFinalBoundaries` on the list of parts. -/
def setInitialAndFinalBoundaries (parts : List AFHTTPBodyPart) : List AFHTTPBodyPart :=
  let parts := parts.map fun part => { part with hasInitialBoundary := false, hasFinalBoundary := false }
  let parts := parts.modify 0 fun part => { part with hasInitialBoundary := true }
  parts.modify (parts.length - 1) fun part => { part with hasFinalBoundary := true }

namespace AFMultipartBodyStream

def isEmpty (stream : AFMultipartBodyStream) : Bool :=
  stream.httpBodyParts.length == 0

/-- The length of the body, which has less than the 2^64 bytes at which the
sum of the code would wrap. -/
def contentLength (stream : AFMultipartBodyStream) : Nat :=
  (stream.httpBodyParts.map AFHTTPBodyPart.contentLength).sum

/-- `NSIntegerMax`, the packet size of a new stream. -/
def integerMax : Nat := 9223372036854775807

/-- `initWithStringEncoding:` followed by `appendHTTPBodyPart:` of the parts. -/
def make (parts : List AFHTTPBodyPart) : AFMultipartBodyStream :=
  ⟨parts, none, none, .notOpen, none, integerMax⟩

/-- `open`. -/
def «open» (stream : AFMultipartBodyStream) : AFMultipartBodyStream :=
  if stream.streamStatus = .opened then stream
  else
    { stream with
      streamStatus := .opened
      httpBodyParts := setInitialAndFinalBoundaries stream.httpBodyParts
      httpBodyPartEnumerator := some 0 }

def close (stream : AFMultipartBodyStream) : AFMultipartBodyStream :=
  { stream with streamStatus := .closed }

/-- The current part, if it has bytes available. -/
def readablePart (stream : AFMultipartBodyStream) : Option (Nat × AFHTTPBodyPart) := do
  let index <- stream.currentHTTPBodyPart
  let part <- stream.httpBodyParts[index]?
  if part.hasBytesAvailable then some (index, part) else none

/-- `[HTTPBodyPartEnumerator nextObject]` made the current part, if there is
one. -/
def advance (stream : AFMultipartBodyStream) : AFMultipartBodyStream :=
  match stream.httpBodyPartEnumerator with
  | none => { stream with currentHTTPBodyPart := none }
  | some index =>
    if index < stream.httpBodyParts.length then
      { stream with currentHTTPBodyPart := some index, httpBodyPartEnumerator := some (index + 1) }
    else { stream with currentHTTPBodyPart := none }

/-- What `read:maxLength:` leaves in its buffer: the bytes that its answer
counts, and behind them those that a failing part has copied. -/
structure ReadBuffer where
  counted : NSData
  uncounted : NSData
  deriving DecidableEq

def setPart (stream : AFMultipartBodyStream) (index : Nat) (part : AFHTTPBodyPart) :
    AFMultipartBodyStream :=
  { stream with httpBodyParts := stream.httpBodyParts.set index part }

/-- The loop of `read:maxLength:`, given the smaller of the buffer and the
packet. -/
def readRounds (stream : AFMultipartBodyStream) (limit : Nat) :
    Nat -> NSData -> ReadBuffer × AFMultipartBodyStream
  | 0, total => (⟨total, []⟩, stream)
  | rounds + 1, total =>
    if total.length < limit then
      match stream.readablePart with
      | none =>
        let stream := stream.advance
        if stream.currentHTTPBodyPart = none then (⟨total, []⟩, stream)
        else readRounds stream limit rounds total
      | some (index, part) =>
        match part.read (limit - total.length) with
        | (.error copied, part) =>
          (⟨total, copied⟩, { stream.setPart index part with streamError := part.inputStream.failure })
        | (.ok bytes, part) => readRounds (stream.setPart index part) limit rounds (total ++ bytes)
    else (⟨total, []⟩, stream)

/-- More rounds than the loop can make: each delivers a byte, uses up a chunk,
ends a phase or goes on to the next part. -/
def maxRounds (stream : AFMultipartBodyStream) : Nat :=
  (stream.httpBodyParts.map fun part =>
    part.encapsulationBoundaryData.length + part.headersData.length +
      part.inputStream.chunks.flatten.length + part.closingBoundaryData.length +
      part.inputStream.chunks.length + 6).sum + 1

/-- `read:maxLength:`. -/
def read (stream : AFMultipartBodyStream) (length : Nat) : ReadBuffer × AFMultipartBodyStream :=
  if stream.streamStatus = .closed then (⟨[], []⟩, stream)
  else stream.readRounds (min length stream.numberOfBytesInPacket) stream.maxRounds []

/-- `copyWithZone:`. -/
def copy (stream : AFMultipartBodyStream) : AFMultipartBodyStream :=
  make (setInitialAndFinalBoundaries (stream.httpBodyParts.map AFHTTPBodyPart.copy))

/-- The stream as the loading system uses it, which takes the counted bytes. -/
def system : EventSystem AFMultipartBodyStream StreamCall NSData where
  step stream
    | .open => (stream.open, [])
    | .close => (stream.close, [])
    | .read size => ((stream.read size).2, [(stream.read size).1.counted])

/-- The same stream with all that its reads leave in their buffers. -/
def bufferSystem : EventSystem AFMultipartBodyStream StreamCall ReadBuffer where
  step stream
    | .open => (stream.open, [])
    | .close => (stream.close, [])
    | .read size => ((stream.read size).2, [(stream.read size).1])

end AFMultipartBodyStream

/-! ## What a list of parts still has to send -/

section Parts

variable (parts : List AFHTTPBodyPart)

/-- There is nothing to read at the index. -/
def Idle (index : Nat) : Prop :=
  forall part, parts[index]? = some part -> part.hasBytesAvailable = false

/-- What the part at an index has to send. -/
def pendingAt (index : Nat) : NSData :=
  match parts[index]? with
  | none => []
  | some part => part.pending

variable {parts}

theorem pendingAt_of_some {index : Nat} {part : AFHTTPBodyPart} (found : parts[index]? = some part) :
    pendingAt parts index = part.pending := by
  unfold pendingAt
  rw [found]

theorem Idle.pendingAt {index : Nat} (idle : Idle parts index) : pendingAt parts index = [] := by
  cases found : parts[index]? with
  | none =>
      unfold AFNetworking.pendingAt
      rw [found]
  | some part =>
      rw [pendingAt_of_some found]
      exact AFHTTPBodyPart.pending_of_not_available (idle part found)

/-- Idle parts may be left out. -/
theorem flatMap_filter_pendingAt {keep : Nat -> Bool} {indices : List Nat}
    (idle : forall index, index ∈ indices -> keep index = false -> Idle parts index) :
    (indices.filter keep).flatMap (pendingAt parts) = indices.flatMap (pendingAt parts) := by
  induction indices with
  | nil => rfl
  | cons index rest inductionHypothesis =>
      have idleRest := inductionHypothesis fun other listed => idle other (List.mem_cons_of_mem _ listed)
      cases kept : keep index with
      | true => rw [List.filter_cons_of_pos kept, List.flatMap_cons, List.flatMap_cons, idleRest]
      | false =>
          rw [List.filter_cons_of_neg (by rw [kept]; exact Bool.false_ne_true), List.flatMap_cons,
            (idle index List.mem_cons_self kept).pendingAt, idleRest, List.nil_append]

/-- What a call loses that leaves the parts otherwise: all that a part still
had to send whose stream fails before it delivers anything, if the call comes
to the end of it. -/
structure Loses (before after : List AFHTTPBodyPart) (lost : NSData) : Prop where
  only : lost = [] ∨ Exists fun index => Exists fun part => before[index]? = some part ∧
    part.Unreadable ∧ pendingAt after index = [] ∧ lost = part.pending
  whenever : forall index part, before[index]? = some part -> part.Unreadable ->
    part.pending ≠ [] -> pendingAt after index = [] -> lost = part.pending

theorem Loses.refl (parts : List AFHTTPBodyPart) : Loses parts parts [] where
  only := Or.inl rfl
  whenever := by
    intro index part found _ more ended
    rw [pendingAt_of_some found] at ended
    exact absurd ended more

theorem Loses.eq_nil_of_sound {before after : List AFHTTPBodyPart} {lost : NSData}
    (loses : Loses before after lost)
    (sound : forall part, part ∈ before -> part.inputStream.failure = none) : lost = [] := by
  rcases loses.only with nothing | ⟨index, part, found, unreadable, _, _⟩
  · exact nothing
  · exact absurd (sound part (List.mem_of_getElem? found)) unreadable.1

theorem pendingAt_set {index : Nat} {old : AFHTTPBodyPart} (found : parts[index]? = some old)
    (new : AFHTTPBodyPart) (position : Nat) :
    pendingAt (parts.set index new) position =
      if index = position then new.pending else pendingAt parts position := by
  unfold pendingAt
  by_cases same : index = position
  · subst same
    rw [if_pos rfl, List.getElem?_set_self (List.getElem?_eq_some_iff.mp found).1]
  · rw [if_neg same, List.getElem?_set_ne same]

/-- A read in which the stream of a part fails loses what it has copied. -/
theorem loses_of_fails {index : Nat} {part after : AFHTTPBodyPart} {copied : NSData}
    (found : parts[index]? = some part) (fails : AFHTTPBodyPart.Fails part after copied) :
    Loses parts (parts.set index after) copied where
  only := by
    refine Or.inr ⟨index, part, found, ⟨fails.failed, fails.noMore⟩, ?_, fails.pending.symm⟩
    rw [pendingAt_set found, if_pos rfl]
    exact AFHTTPBodyPart.pending_of_not_available fails.finished.hasBytesAvailable
  whenever := by
    intro position other there _ more ended
    rw [pendingAt_set found] at ended
    by_cases same : index = position
    · subst same
      rw [found] at there
      cases there
      exact fails.pending.symm
    · rw [if_neg same, pendingAt_of_some there] at ended
      exact absurd ended more

/-- What is lost after a read of a part that did not fail was not lost in that
part, as long as such a read has filled its room. -/
theorem Loses.of_set {last : List AFHTTPBodyPart} {index room : Nat} {part after : AFHTTPBodyPart}
    {bytes lost : NSData} (loses : Loses (parts.set index after) last lost)
    (found : parts[index]? = some part)
    (partRead : AFHTTPBodyPart.PartRead part room (.ok bytes) after)
    (noRoom : lost ≠ [] -> ¬ room ≤ bytes.length) : Loses parts last lost where
  only := by
    by_cases nothing : lost = []
    · exact Or.inl nothing
    rcases loses.only with empty | ⟨position, other, there, unreadable, ended, same⟩
    · exact Or.inl empty
    · right
      refine ⟨position, other, ?_, unreadable, ended, same⟩
      by_cases isHere : index = position
      · subst isHere
        rw [List.getElem?_set_self (List.getElem?_eq_some_iff.mp found).1] at there
        cases there
        rw [same] at nothing
        have full := (partRead.unreadable_of_pending unreadable nothing).2
        rw [← same] at nothing
        exact absurd full (noRoom nothing)
      · rwa [List.getElem?_set_ne isHere] at there
  whenever := by
    intro position other there unreadable more ended
    by_cases isHere : index = position
    · subst isHere
      rw [found] at there
      cases there
      cases partRead with
      | takes valid takes fits moves stays =>
          rcases stays unreadable with ⟨stuck, left, full⟩
          have lostHere := loses.whenever index after
            (List.getElem?_set_self (List.getElem?_eq_some_iff.mp found).1) stuck left ended
          rw [← lostHere] at left
          exact absurd full (noRoom left)
    · exact loses.whenever position other ((List.getElem?_set_ne isHere).trans there) unreadable more
        ended

theorem sum_map_set_lt {Item : Type} {size : Item -> Nat} {items : List Item} {index : Nat}
    {old new : Item} (found : items[index]? = some old) (smaller : size new < size old) :
    ((items.set index new).map size).sum < (items.map size).sum := by
  induction items generalizing index with
  | nil => cases found
  | cons item rest inductionHypothesis =>
      cases index with
      | zero =>
          cases found
          exact Nat.add_lt_add_right smaller _
      | succ index => exact Nat.add_lt_add_left (inductionHypothesis found) _

end Parts

/-! ## The invariant of the stream -/

/-- The first part has the initial boundary, the last one the final boundary,
and no other part has either. -/
def FlagsSet (parts : List AFHTTPBodyPart) : Prop :=
  forall index part, parts[index]? = some part ->
    part.hasInitialBoundary = decide (index = 0) ∧
      part.hasFinalBoundary = decide (index + 1 = parts.length)

theorem getElem?_setInitialAndFinalBoundaries (parts : List AFHTTPBodyPart) (index : Nat) :
    (setInitialAndFinalBoundaries parts)[index]? = parts[index]?.map fun part =>
      { part with
        hasInitialBoundary := decide (index = 0)
        hasFinalBoundary := decide (index + 1 = parts.length) } := by
  unfold setInitialAndFinalBoundaries
  simp only [List.getElem?_modify, List.getElem?_map, List.length_modify, List.length_map]
  cases found : parts[index]? with
  | none => rfl
  | some part =>
      have inRange : index < parts.length := (List.getElem?_eq_some_iff.mp found).1
      have first : decide (index = 0) = decide (0 = index) := decide_eq_decide.mpr eq_comm
      have last : decide (index + 1 = parts.length) = decide (parts.length - 1 = index) :=
        decide_eq_decide.mpr (by omega)
      change some _ = some _
      rw [first, last]
      by_cases isFirst : 0 = index <;> by_cases isLast : parts.length - 1 = index <;>
        simp only [isFirst, isLast, if_true, if_false, decide_true, decide_false]

theorem length_setInitialAndFinalBoundaries (parts : List AFHTTPBodyPart) :
    (setInitialAndFinalBoundaries parts).length = parts.length := by
  unfold setInitialAndFinalBoundaries
  simp only [List.length_modify, List.length_map]

theorem flagsSet_setInitialAndFinalBoundaries (parts : List AFHTTPBodyPart) :
    FlagsSet (setInitialAndFinalBoundaries parts) := by
  intro index part found
  rw [getElem?_setInitialAndFinalBoundaries] at found
  rcases Option.map_eq_some_iff.mp found with ⟨before, _, rfl⟩
  rw [length_setInitialAndFinalBoundaries]
  exact ⟨rfl, rfl⟩

theorem FlagsSet.setInitialAndFinalBoundaries_eq {parts : List AFHTTPBodyPart}
    (flags : FlagsSet parts) : setInitialAndFinalBoundaries parts = parts := by
  apply List.ext_getElem?
  intro index
  rw [getElem?_setInitialAndFinalBoundaries]
  cases found : parts[index]? with
  | none => rfl
  | some part =>
      have here := flags index part found
      rw [Option.map_some, ← here.1, ← here.2]

namespace AFMultipartBodyStream

/-- The index at which the enumerator goes on. -/
def nextIndex (stream : AFMultipartBodyStream) : Nat :=
  stream.httpBodyPartEnumerator.getD 0

/-- The parts that the enumerator has not passed. -/
def upcoming (stream : AFMultipartBodyStream) : List Nat :=
  List.range' stream.nextIndex (stream.httpBodyParts.length - stream.nextIndex)

/-- The parts in the order in which they are read from now on. -/
def order (stream : AFMultipartBodyStream) : List Nat :=
  stream.currentHTTPBodyPart.toList ++
    stream.upcoming.filter fun index => stream.currentHTTPBodyPart != some index

/-- What the stream has to send from now on: of each part all that is to come
until its end or its failure. -/
def pending (stream : AFMultipartBodyStream) : NSData :=
  stream.order.flatMap (pendingAt stream.httpBodyParts)

/-- No part has a stream that will fail. -/
def Sound (stream : AFMultipartBodyStream) : Prop :=
  forall part, part ∈ stream.httpBodyParts -> part.inputStream.failure = none

/-- What holds of a finalized body stream however it is used: the parts that
the enumerator has passed are idle, but for the current one. -/
structure Invariant (stream : AFMultipartBodyStream) : Prop where
  valid : forall part, part ∈ stream.httpBodyParts -> part.Valid
  flags : FlagsSet stream.httpBodyParts
  passed : forall index, index < stream.nextIndex -> stream.currentHTTPBodyPart ≠ some index ->
    Idle stream.httpBodyParts index
  status : stream.streamStatus = .notOpen ∧ stream.httpBodyPartEnumerator = none ∧
      stream.currentHTTPBodyPart = none ∨
    stream.streamStatus = .opened ∧ stream.httpBodyPartEnumerator ≠ none ∨
    stream.streamStatus = .closed

/-- The measure of the loop. -/
def work (stream : AFMultipartBodyStream) : Nat :=
  (stream.httpBodyParts.map fun part => part.pending.length + part.steps).sum +
    (stream.httpBodyParts.length - stream.nextIndex)

theorem readablePart_eq_some_iff (stream : AFMultipartBodyStream) (index : Nat)
    (part : AFHTTPBodyPart) :
    stream.readablePart = some (index, part) ↔
      stream.currentHTTPBodyPart = some index ∧ stream.httpBodyParts[index]? = some part ∧
        part.hasBytesAvailable = true := by
  unfold readablePart
  cases current : stream.currentHTTPBodyPart with
  | none => exact ⟨nofun, fun found => nomatch found.1⟩
  | some position =>
      change (stream.httpBodyParts[position]?.bind _) = _ ↔ _
      cases found : stream.httpBodyParts[position]? with
      | none =>
          constructor
          · exact nofun
          · rintro ⟨same, there, _⟩
            cases same
            rw [found] at there
            cases there
      | some candidate =>
          change (if _ then _ else _) = _ ↔ _
          by_cases available : candidate.hasBytesAvailable = true
          · rw [if_pos available]
            constructor
            · intro same
              cases same
              exact ⟨rfl, found, available⟩
            · rintro ⟨same, there, _⟩
              cases same
              rw [found] at there
              cases there
              rfl
          · rw [if_neg available]
            constructor
            · exact nofun
            · rintro ⟨same, there, isAvailable⟩
              cases same
              rw [found] at there
              cases there
              exact absurd isAvailable available

theorem idle_of_readablePart_eq_none {stream : AFMultipartBodyStream}
    (noneReadable : stream.readablePart = none) {index : Nat}
    (current : stream.currentHTTPBodyPart = some index) : Idle stream.httpBodyParts index := by
  intro part found
  cases available : part.hasBytesAvailable with
  | false => rfl
  | true =>
      have readable := (readablePart_eq_some_iff stream index part).mpr ⟨current, found, available⟩
      rw [noneReadable] at readable
      cases readable

/-- When the current part has nothing left, what is to come is in the parts
ahead of the enumerator. -/
theorem pending_eq_upcoming {stream : AFMultipartBodyStream}
    (noneReadable : stream.readablePart = none) :
    stream.pending = stream.upcoming.flatMap (pendingAt stream.httpBodyParts) := by
  have idleCurrent : forall index, stream.currentHTTPBodyPart = some index ->
      Idle stream.httpBodyParts index := fun _ => idle_of_readablePart_eq_none noneReadable
  have filtered := @flatMap_filter_pendingAt stream.httpBodyParts
    (fun index => stream.currentHTTPBodyPart != some index) stream.upcoming
    (fun index _ dropped => idleCurrent index (by simpa using dropped))
  unfold pending order
  rw [List.flatMap_append, filtered]
  cases current : stream.currentHTTPBodyPart with
  | none => rfl
  | some index =>
      rw [Option.toList_some, List.flatMap_singleton, (idleCurrent index current).pendingAt,
        List.nil_append]

/-! ## Rounds of a read -/

theorem flagsSet_set {parts : List AFHTTPBodyPart} (flags : FlagsSet parts) {index : Nat}
    {before after : AFHTTPBodyPart} (found : parts[index]? = some before)
    (sameInitial : after.hasInitialBoundary = before.hasInitialBoundary)
    (sameFinal : after.hasFinalBoundary = before.hasFinalBoundary) :
    FlagsSet (parts.set index after) := by
  intro position part there
  rw [List.length_set]
  rw [List.getElem?_set] at there
  by_cases same : index = position
  · rw [if_pos same] at there
    cases same
    split at there
    · cases there
      rw [sameInitial, sameFinal]
      exact flags index before found
    · cases there
  · rw [if_neg same] at there
    exact flags position part there

theorem idle_set_of_ne {parts : List AFHTTPBodyPart} {index position : Nat} {after : AFHTTPBodyPart}
    (differs : index ≠ position) (idle : Idle parts position) :
    Idle (parts.set index after) position := by
  intro part there
  rw [List.getElem?_set_ne differs] at there
  exact idle part there

/-- A new state of the current part that is valid and keeps its boundaries
keeps the invariant. -/
theorem Invariant.setPart {stream : AFMultipartBodyStream} (invariant : stream.Invariant)
    {index : Nat} {before after : AFHTTPBodyPart}
    (current : stream.currentHTTPBodyPart = some index)
    (found : stream.httpBodyParts[index]? = some before) (valid : after.Valid)
    (sameInitial : after.hasInitialBoundary = before.hasInitialBoundary)
    (sameFinal : after.hasFinalBoundary = before.hasFinalBoundary) :
    (stream.setPart index after).Invariant where
  valid := by
    intro part listed
    rcases List.mem_or_eq_of_mem_set listed with old | rfl
    · exact invariant.valid part old
    · exact valid
  flags := flagsSet_set invariant.flags found sameInitial sameFinal
  passed := by
    intro position early notCurrent
    apply idle_set_of_ne
    · rintro rfl
      exact notCurrent current
    · exact invariant.passed position early notCurrent
  status := invariant.status

/-- The current part comes first, and the others do not contain it. -/
theorem order_of_current {stream : AFMultipartBodyStream} {index : Nat}
    (current : stream.currentHTTPBodyPart = some index) :
    Exists fun others => stream.order = index :: others ∧ index ∉ others := by
  refine ⟨stream.upcoming.filter fun other => stream.currentHTTPBodyPart != some other, ?_, ?_⟩
  · unfold order
    rw [current]
    rfl
  · intro listed
    have kept := (List.mem_filter.mp listed).2
    rw [current] at kept
    simp at kept

/-- What the stream has to send changes with its current part. -/
theorem pending_setPart {stream : AFMultipartBodyStream} {index : Nat}
    {before after : AFHTTPBodyPart} {bytes : NSData}
    (current : stream.currentHTTPBodyPart = some index)
    (found : stream.httpBodyParts[index]? = some before)
    (here : before.pending = bytes ++ after.pending) :
    stream.pending = bytes ++ (stream.setPart index after).pending := by
  rcases order_of_current current with ⟨others, order, notListed⟩
  have sameOrder : (stream.setPart index after).order = index :: others := by
    rw [← order]
    unfold AFMultipartBodyStream.order upcoming setPart nextIndex
    rw [List.length_set]
  have replaced : (stream.setPart index after).httpBodyParts[index]? = some after :=
    List.getElem?_set_self (List.getElem?_eq_some_iff.mp found).1
  have unchanged : others.flatMap (pendingAt (stream.setPart index after).httpBodyParts) =
      others.flatMap (pendingAt stream.httpBodyParts) := by
    apply List.flatMap_congr
    intro position listed
    have differs : index ≠ position := by
      rintro rfl
      exact notListed listed
    exact (pendingAt_set found after position).trans (if_neg differs)
  unfold pending
  rw [sameOrder, order, List.flatMap_cons, List.flatMap_cons, unchanged, pendingAt_of_some found,
    pendingAt_of_some replaced, here, List.append_assoc]

theorem range'_of_lt {start stop : Nat} (before : start < stop) :
    List.range' start (stop - start) = start :: List.range' (start + 1) (stop - (start + 1)) := by
  rw [show stop - start = stop - (start + 1) + 1 by omega, List.range'_succ]

/-- After `nextObject` the enumerated parts are those that were ahead. -/
theorem order_advance (stream : AFMultipartBodyStream) : stream.advance.order = stream.upcoming := by
  have noCurrent : forall other : AFMultipartBodyStream, other.currentHTTPBodyPart = none ->
      other.order = other.upcoming := by
    intro other current
    unfold order
    rw [current]
    exact List.filter_eq_self.mpr fun _ _ => rfl
  unfold advance
  cases enumerator : stream.httpBodyPartEnumerator with
  | none =>
      change AFMultipartBodyStream.order _ = _
      rw [noCurrent]
      · unfold upcoming nextIndex
        rw [enumerator]
      · rfl
  | some index =>
      simp only
      by_cases more : index < stream.httpBodyParts.length
      · rw [if_pos more]
        unfold order upcoming nextIndex
        rw [enumerator]
        change index :: (List.range' (index + 1) (stream.httpBodyParts.length - (index + 1))).filter
          (fun other => some index != some other) =
            List.range' index (stream.httpBodyParts.length - index)
        rw [range'_of_lt more]
        congr 1
        apply List.filter_eq_self.mpr
        intro other listed
        have later := (List.mem_range'_1.mp listed).1
        simp only [bne_iff_ne, ne_eq, Option.some.injEq]
        omega
      · rw [if_neg more, noCurrent]
        · unfold upcoming nextIndex
          rw [enumerator]
        · rfl

/-- `nextObject` goes on to the next part, or there is none. -/
theorem advance_cases (stream : AFMultipartBodyStream) :
    (Exists fun index => stream.httpBodyPartEnumerator = some index ∧
        index < stream.httpBodyParts.length ∧
        stream.advance = { stream with
          currentHTTPBodyPart := some index, httpBodyPartEnumerator := some (index + 1) }) ∨
      ((stream.httpBodyPartEnumerator = none ∨ stream.upcoming = []) ∧
        stream.advance = { stream with currentHTTPBodyPart := none }) := by
  rcases stream with ⟨parts, enumerator, current, status, error, packet⟩
  cases enumerator with
  | none => exact Or.inr ⟨Or.inl rfl, rfl⟩
  | some index =>
      by_cases more : index < parts.length
      · exact Or.inl ⟨index, rfl, more, if_pos more⟩
      · refine Or.inr ⟨Or.inr ?_, if_neg more⟩
        have noneLeft : parts.length - index = 0 := Nat.sub_eq_zero_of_le (Nat.not_lt.mp more)
        change List.range' index (parts.length - index) = []
        rw [noneLeft]
        rfl

theorem advance_frame (stream : AFMultipartBodyStream) :
    stream.advance.httpBodyParts = stream.httpBodyParts ∧
      stream.advance.streamStatus = stream.streamStatus ∧
      stream.advance.numberOfBytesInPacket = stream.numberOfBytesInPacket := by
  rcases advance_cases stream with ⟨index, _, _, result⟩ | ⟨_, result⟩ <;>
    rw [result] <;> exact ⟨rfl, rfl, rfl⟩

theorem pending_advance {stream : AFMultipartBodyStream}
    (noneReadable : stream.readablePart = none) : stream.pending = stream.advance.pending := by
  rw [pending_eq_upcoming noneReadable, pending, order_advance, (advance_frame stream).1]

theorem Invariant.advance {stream : AFMultipartBodyStream} (invariant : stream.Invariant)
    (noneReadable : stream.readablePart = none) : stream.advance.Invariant := by
  have idleBefore : forall index, index < stream.nextIndex -> Idle stream.httpBodyParts index := by
    intro index early
    by_cases current : stream.currentHTTPBodyPart = some index
    · exact idle_of_readablePart_eq_none noneReadable current
    · exact invariant.passed index early current
  rcases advance_cases stream with ⟨index, enumerator, more, result⟩ | ⟨noMore, result⟩
  · rw [result]
    refine ⟨invariant.valid, invariant.flags, ?_, ?_⟩
    · intro position early notCurrent
      have differs : position ≠ index := fun same => notCurrent (congrArg some same.symm)
      have nextIndex : stream.nextIndex = index := by
        unfold AFMultipartBodyStream.nextIndex
        rw [enumerator]
        rfl
      apply idleBefore
      rw [nextIndex]
      change position < index + 1 at early
      omega
    · rcases invariant.status with ⟨_, impossible, _⟩ | ⟨isOpen, _⟩ | isClosed
      · rw [enumerator] at impossible
        cases impossible
      · exact Or.inr (Or.inl ⟨isOpen, nofun⟩)
      · exact Or.inr (Or.inr isClosed)
  · rw [result]
    refine ⟨invariant.valid, invariant.flags, fun index early _ => idleBefore index early, ?_⟩
    rcases invariant.status with ⟨notOpen, noEnumerator, _⟩ | rest
    · exact Or.inl ⟨notOpen, noEnumerator, rfl⟩
    · exact Or.inr rest

/-- The outcome of the loop: some bytes are counted and some behind them are
lost, and it ends when there is no room, nothing left or a stream that
fails. -/
structure Rounds (before : AFMultipartBodyStream) (room : Nat) (after : AFMultipartBodyStream)
    (bytes lost : NSData) : Prop where
  invariant : after.Invariant
  pending : before.pending = bytes ++ (lost ++ after.pending)
  fits : bytes.length ≤ room
  ends : room ≤ bytes.length ∨ after.order = [] ∨ ¬ before.Sound
  loses : Loses before.httpBodyParts after.httpBodyParts lost
  losesInRoom : lost ≠ [] -> 0 < room
  sound : before.Sound -> after.Sound
  status : after.streamStatus = before.streamStatus
  packet : after.numberOfBytesInPacket = before.numberOfBytesInPacket

theorem Rounds.refl {stream : AFMultipartBodyStream} (invariant : stream.Invariant) {room : Nat}
    (ends : room ≤ 0 ∨ stream.order = []) : Rounds stream room stream [] [] where
  invariant := invariant
  pending := rfl
  fits := Nat.zero_le _
  ends := ends.elim Or.inl fun finished => Or.inr (Or.inl finished)
  loses := Loses.refl _
  losesInRoom := fun nonempty => absurd rfl nonempty
  sound := id
  status := rfl
  packet := rfl

/-- A step of the loop before the rest of it. -/
theorem Rounds.cons {before between after : AFMultipartBodyStream} {room : Nat}
    {bytes later lost : NSData} (pending : before.pending = bytes ++ between.pending)
    (fits : bytes.length ≤ room) (sound : before.Sound -> between.Sound)
    (status : between.streamStatus = before.streamStatus)
    (packet : between.numberOfBytesInPacket = before.numberOfBytesInPacket)
    (rounds : Rounds between (room - bytes.length) after later lost)
    (loses : Loses before.httpBodyParts after.httpBodyParts lost) :
    Rounds before room after (bytes ++ later) lost where
  invariant := rounds.invariant
  pending := by rw [pending, rounds.pending, List.append_assoc]
  fits := by
    have laterFits := rounds.fits
    rw [List.length_append]
    omega
  ends := by
    rcases rounds.ends with full | finished | unsound
    · left
      rw [List.length_append]
      omega
    · exact Or.inr (Or.inl finished)
    · exact Or.inr (Or.inr fun isSound => unsound (sound isSound))
  loses := loses
  losesInRoom := fun nonempty => Nat.lt_of_lt_of_le (rounds.losesInRoom nonempty) (Nat.sub_le _ _)
  sound := fun isSound => rounds.sound (sound isSound)
  status := rounds.status.trans status
  packet := rounds.packet.trans packet

theorem sound_setPart {stream : AFMultipartBodyStream} {index : Nat} {before after : AFHTTPBodyPart}
    (found : stream.httpBodyParts[index]? = some before)
    (failure : after.inputStream.failure = before.inputStream.failure) (sound : stream.Sound) :
    (stream.setPart index after).Sound := by
  intro part listed
  rcases List.mem_or_eq_of_mem_set listed with old | rfl
  · exact sound part old
  · exact failure.trans (sound before (List.mem_of_getElem? found))

theorem work_setPart_lt {stream : AFMultipartBodyStream} {index : Nat}
    {before after : AFHTTPBodyPart} {bytes : NSData}
    (found : stream.httpBodyParts[index]? = some before)
    (takes : AFHTTPBodyPart.Takes before after bytes)
    (moves : AFHTTPBodyPart.Moves before after bytes) :
    (stream.setPart index after).work < stream.work := by
  have shorter : after.pending.length + after.steps < before.pending.length + before.steps := by
    have fewer := takes.steps_le
    rw [takes.pending, List.length_append]
    rcases moves with nonempty | less
    · have positive := List.length_pos_iff.mpr nonempty
      omega
    · omega
  unfold work
  change (((stream.httpBodyParts.set index after).map _).sum +
    ((stream.httpBodyParts.set index after).length - stream.nextIndex)) < _
  rw [List.length_set]
  exact Nat.add_lt_add_right (sum_map_set_lt found shorter) _

theorem sound_advance {stream : AFMultipartBodyStream} (sound : stream.Sound) :
    stream.advance.Sound := by
  unfold Sound
  rw [(advance_frame stream).1]
  exact sound

theorem work_advance_lt {stream : AFMultipartBodyStream} {index : Nat}
    (enumerator : stream.httpBodyPartEnumerator = some index)
    (inRange : index < stream.httpBodyParts.length)
    (result : stream.advance = { stream with
      currentHTTPBodyPart := some index, httpBodyPartEnumerator := some (index + 1) }) :
    stream.advance.work < stream.work := by
  rw [result]
  unfold work nextIndex
  rw [enumerator]
  apply Nat.add_lt_add_left
  change stream.httpBodyParts.length - (index + 1) < stream.httpBodyParts.length - index
  omega

/-- The loop goes on to the next part. -/
theorem Rounds.cons_advance {stream after : AFMultipartBodyStream} {room : Nat}
    {bytes lost : NSData} (noneReadable : stream.readablePart = none)
    (rounds : Rounds stream.advance room after bytes lost) : Rounds stream room after bytes lost := by
  have frame := advance_frame stream
  have loses := rounds.loses
  rw [frame.1] at loses
  exact @Rounds.cons stream stream.advance after room [] bytes lost (pending_advance noneReadable)
    (Nat.zero_le room) sound_advance frame.2.1 frame.2.2 rounds loses

/-- There is no next part. -/
theorem rounds_of_last {stream : AFMultipartBodyStream} (invariant : stream.Invariant)
    (noneReadable : stream.readablePart = none) (noneLeft : stream.upcoming = []) (room : Nat) :
    Rounds stream room stream.advance [] [] := by
  have ended : stream.advance.order = [] := by
    rw [order_advance]
    exact noneLeft
  exact (Rounds.refl (invariant.advance noneReadable) (Or.inr ended)).cons_advance noneReadable

/-- The stream of the current part fails. -/
theorem rounds_of_fails {stream : AFMultipartBodyStream} (invariant : stream.Invariant) {index : Nat}
    {part after : AFHTTPBodyPart} {copied : NSData}
    (current : stream.currentHTTPBodyPart = some index)
    (found : stream.httpBodyParts[index]? = some part)
    (fails : AFHTTPBodyPart.Fails part after copied) {room : Nat} (more : 0 < room) :
    Rounds stream room { stream.setPart index after with streamError := after.inputStream.failure }
      [] copied := by
  have kept := invariant.setPart current found (Or.inr fails.finished) fails.hasInitialBoundary
    fails.hasFinalBoundary
  have noneLeft := AFHTTPBodyPart.pending_of_not_available fails.finished.hasBytesAvailable
  refine ⟨⟨kept.valid, kept.flags, kept.passed, kept.status⟩, ?_, Nat.zero_le _, ?_, ?_,
    fun _ => more, ?_, rfl, rfl⟩
  · apply pending_setPart current found
    rw [fails.pending, noneLeft, List.append_nil]
  · exact Or.inr (Or.inr fun sound => fails.failed (sound part (List.mem_of_getElem? found)))
  · exact loses_of_fails found fails
  · exact sound_setPart found fails.failure

/-- The current part delivers some bytes. -/
theorem Rounds.cons_takes {stream last : AFMultipartBodyStream} {index room : Nat}
    {part after : AFHTTPBodyPart} {bytes later lost : NSData}
    (current : stream.currentHTTPBodyPart = some index)
    (found : stream.httpBodyParts[index]? = some part)
    (takes : AFHTTPBodyPart.Takes part after bytes) (fits : bytes.length ≤ room)
    (partRead : AFHTTPBodyPart.PartRead part room (.ok bytes) after)
    (rounds : Rounds (stream.setPart index after) (room - bytes.length) last later lost) :
    Rounds stream room last (bytes ++ later) lost := by
  refine Rounds.cons (pending_setPart current found takes.pending) fits
    (sound_setPart found takes.failure) rfl rfl rounds ?_
  refine rounds.loses.of_set found partRead fun nonempty full => ?_
  have positive := rounds.losesInRoom nonempty
  omega

/-- With more rounds than there is work, the loop ends by itself. -/
theorem rounds_of_readRounds {rounds limit : Nat} {stream : AFMultipartBodyStream}
    (invariant : stream.Invariant) (started : stream.httpBodyPartEnumerator ≠ none)
    (enough : stream.work < rounds) (total : NSData) :
    Exists fun bytes => (stream.readRounds limit rounds total).1.counted = total ++ bytes ∧
      Rounds stream (limit - total.length) (stream.readRounds limit rounds total).2 bytes
        (stream.readRounds limit rounds total).1.uncounted := by
  induction rounds generalizing stream total with
  | zero => omega
  | succ rounds inductionHypothesis =>
      unfold readRounds
      by_cases more : total.length < limit
      · rw [if_pos more]
        cases readable : stream.readablePart with
        | none =>
            simp only
            rcases advance_cases stream with
              ⟨index, enumerator, inRange, result⟩ | ⟨noMore, result⟩
            · have less := work_advance_lt enumerator inRange result
              have hasCurrent : stream.advance.currentHTTPBodyPart ≠ none := by
                rw [result]
                exact nofun
              have stillStarted : stream.advance.httpBodyPartEnumerator ≠ none := by
                rw [result]
                exact nofun
              rw [if_neg hasCurrent]
              rcases inductionHypothesis (invariant.advance readable) stillStarted (by omega) total
                with ⟨bytes, same, later⟩
              exact ⟨bytes, same, later.cons_advance readable⟩
            · have noCurrent : stream.advance.currentHTTPBodyPart = none := by
                rw [result]
              rw [if_pos noCurrent]
              exact ⟨[], (List.append_nil total).symm,
                rounds_of_last invariant readable (noMore.resolve_left started) _⟩
        | some found =>
            rcases found with ⟨index, part⟩
            rcases (readablePart_eq_some_iff stream index part).mp readable with
              ⟨current, found, available⟩
            have partReadable :=
              (invariant.valid part (List.mem_of_getElem? found)).readable available
            have partRead := AFHTTPBodyPart.partRead_of_readable partReadable (limit - total.length)
            revert partRead
            simp only
            rcases part.read (limit - total.length) with ⟨answer, after⟩
            intro partRead
            have known := partRead
            cases partRead with
            | fails fails =>
                exact ⟨[], (List.append_nil total).symm,
                  rounds_of_fails invariant current found fails (by omega)⟩
            | takes valid takes fits moves stays =>
                rename_i bytes
                have kept := invariant.setPart current found valid takes.hasInitialBoundary
                  takes.hasFinalBoundary
                have less := work_setPart_lt found takes (moves (by omega))
                rcases inductionHypothesis kept started (by omega) (total ++ bytes) with
                  ⟨laterBytes, same, later⟩
                rw [List.length_append, ← Nat.sub_sub] at later
                exact ⟨bytes ++ laterBytes, same.trans (List.append_assoc total bytes laterBytes),
                  later.cons_takes current found takes fits known⟩
      · rw [if_neg more]
        exact ⟨[], (List.append_nil total).symm, Rounds.refl invariant (Or.inl (by omega))⟩

theorem sum_map_add_length_le {Item : Type} {small large : Item -> Nat} {items : List Item}
    (smaller : forall item, item ∈ items -> small item + 1 ≤ large item) :
    (items.map small).sum + items.length ≤ (items.map large).sum := by
  induction items with
  | nil => exact Nat.le_refl 0
  | cons item rest inductionHypothesis =>
      have parts := List.forall_mem_cons.mp smaller
      have later := inductionHypothesis parts.2
      rw [List.map_cons, List.map_cons, List.sum_cons, List.sum_cons, List.length_cons]
      omega

theorem length_pending_le (part : AFHTTPBodyPart) :
    part.pending.length ≤ part.encapsulationBoundaryData.length + part.headersData.length +
      part.inputStream.chunks.flatten.length + part.closingBoundaryData.length := by
  have tail : part.tail.length ≤ part.closingBoundaryData.length := by
    unfold AFHTTPBodyPart.tail
    split
    · exact Nat.le_refl _
    · exact Nat.zero_le _
  unfold AFHTTPBodyPart.pending AFHTTPBodyPart.ahead
  split
  · split <;> simp only [List.length_append, List.length_drop] <;> omega
  · exact Nat.zero_le _

theorem work_lt_maxRounds (stream : AFMultipartBodyStream) : stream.work < stream.maxRounds := by
  have bounded := @sum_map_add_length_le AFHTTPBodyPart
    (fun part => part.pending.length + part.steps)
    (fun part => part.encapsulationBoundaryData.length + part.headersData.length +
      part.inputStream.chunks.flatten.length + part.closingBoundaryData.length +
      part.inputStream.chunks.length + 6) stream.httpBodyParts (by
        intro part _
        have shorter := length_pending_le part
        have fewer : part.steps ≤ part.inputStream.chunks.length + 4 := by
          unfold AFHTTPBodyPart.steps AFHTTPBodyPart.phasesAhead
          split
          · split <;> omega
          · omega
        omega)
  unfold work maxRounds
  omega

/-- A read of an open stream is a run of the loop. -/
theorem rounds_of_read {stream : AFMultipartBodyStream} (invariant : stream.Invariant)
    (isOpen : stream.streamStatus = .opened) (length : Nat) :
    Rounds stream (min length stream.numberOfBytesInPacket) (stream.read length).2
      (stream.read length).1.counted (stream.read length).1.uncounted := by
  have started : stream.httpBodyPartEnumerator ≠ none := by
    rcases invariant.status with ⟨notOpen, _⟩ | ⟨_, started⟩ | isClosed
    · rw [isOpen] at notOpen
      cases notOpen
    · exact started
    · rw [isOpen] at isClosed
      cases isClosed
  have notClosed : stream.streamStatus ≠ .closed := by
    rw [isOpen]
    exact nofun
  unfold read
  rw [if_neg notClosed]
  rcases @rounds_of_readRounds stream.maxRounds (min length stream.numberOfBytesInPacket) stream
    invariant started stream.work_lt_maxRounds [] with ⟨bytes, same, rounds⟩
  rw [same]
  exact rounds

/-- A stream that is not open answers nothing and stays as it is. -/
theorem read_of_not_opened {stream : AFMultipartBodyStream} (invariant : stream.Invariant)
    (notOpened : stream.streamStatus ≠ .opened) (length : Nat) :
    stream.read length = (⟨[], []⟩, stream) := by
  rcases invariant.status with ⟨notOpen, noEnumerator, noCurrent⟩ | ⟨isOpen, _⟩ | isClosed
  · rcases stream with ⟨parts, enumerator, current, status, error, packet⟩
    cases noEnumerator
    cases noCurrent
    cases notOpen
    unfold read
    rw [if_neg nofun, maxRounds, readRounds]
    split
    · rfl
    · rfl
  · exact absurd isOpen notOpened
  · exact if_pos isClosed

theorem open_cases {stream : AFMultipartBodyStream} (invariant : stream.Invariant) :
    stream.open = stream ∨ stream.open =
      { stream with streamStatus := .opened, httpBodyPartEnumerator := some 0 } := by
  unfold AFMultipartBodyStream.open
  by_cases isOpen : stream.streamStatus = .opened
  · rw [if_pos isOpen]
    exact Or.inl rfl
  · rw [if_neg isOpen, FlagsSet.setInitialAndFinalBoundaries_eq invariant.flags]
    exact Or.inr rfl

theorem filter_le_range' (start stop : Nat) :
    (List.range' 0 stop).filter (fun index => decide (start ≤ index)) =
      List.range' start (stop - start) := by
  by_cases ordered : start ≤ stop
  · have split : List.range' 0 stop = List.range' 0 start ++ List.range' start (stop - start) := by
      have joined := @List.range'_append_1 0 start (stop - start)
      rw [Nat.zero_add, Nat.add_sub_cancel' ordered] at joined
      exact joined.symm
    rw [split, List.filter_append]
    have early : (List.range' 0 start).filter (fun index => decide (start ≤ index)) = [] := by
      apply List.filter_eq_nil_iff.mpr
      intro index listed
      have bound := (List.mem_range'_1.mp listed).2
      simp only [decide_eq_true_eq]
      omega
    have late : (List.range' start (stop - start)).filter (fun index => decide (start ≤ index)) =
        List.range' start (stop - start) := by
      apply List.filter_eq_self.mpr
      intro index listed
      exact decide_eq_true (List.mem_range'_1.mp listed).1
    rw [early, late, List.nil_append]
  · rw [show stop - start = 0 by omega]
    apply List.filter_eq_nil_iff.mpr
    intro index listed
    have bound := (List.mem_range'_1.mp listed).2
    simp only [decide_eq_true_eq]
    omega

/-- Starting the enumerator again changes nothing: what it has passed is
idle. -/
theorem pending_restarted {stream : AFMultipartBodyStream} (invariant : stream.Invariant) :
    AFMultipartBodyStream.pending
        { stream with streamStatus := .opened, httpBodyPartEnumerator := some 0 } =
      stream.pending := by
  have ahead := filter_le_range' stream.nextIndex stream.httpBodyParts.length
  unfold pending order
  rw [List.flatMap_append, List.flatMap_append]
  congr 1
  change ((List.range' 0 (stream.httpBodyParts.length - 0)).filter fun index =>
    stream.currentHTTPBodyPart != some index).flatMap (pendingAt stream.httpBodyParts) = _
  rw [Nat.sub_zero, upcoming, ← ahead, List.filter_comm]
  symm
  apply flatMap_filter_pendingAt
  intro index listed early
  have notCurrent := (List.mem_filter.mp listed).2
  apply invariant.passed index
  · simpa using early
  · simpa using notCurrent

theorem Invariant.open {stream : AFMultipartBodyStream} (invariant : stream.Invariant) :
    stream.open.Invariant := by
  rcases open_cases invariant with same | opened
  · rw [same]
    exact invariant
  · rw [opened]
    exact ⟨invariant.valid, invariant.flags, fun _ early => absurd early (Nat.not_lt_zero _),
      Or.inr (Or.inl ⟨rfl, nofun⟩)⟩

theorem pending_open {stream : AFMultipartBodyStream} (invariant : stream.Invariant) :
    stream.open.pending = stream.pending := by
  rcases open_cases invariant with same | opened
  · rw [same]
  · rw [opened]
    exact pending_restarted invariant

theorem Invariant.close {stream : AFMultipartBodyStream} (invariant : stream.Invariant) :
    stream.close.Invariant :=
  ⟨invariant.valid, invariant.flags, invariant.passed, Or.inr (Or.inr rfl)⟩

/-! ## Runs -/

/-- The bytes in a buffer, counted or not. -/
def ReadBuffer.bytes (buffer : ReadBuffer) : NSData :=
  buffer.counted ++ buffer.uncounted

/-- What a call leaves in its buffer comes first in what was to be sent, and
what it loses is as `Loses` says. -/
theorem step_counts {stream : AFMultipartBodyStream} (invariant : stream.Invariant)
    (call : StreamCall) :
    (bufferSystem.next stream call).Invariant ∧
      stream.pending = (bufferSystem.emits stream call).flatMap ReadBuffer.bytes ++
        (bufferSystem.next stream call).pending ∧
      bufferSystem.Emits (fun buffer => Loses stream.httpBodyParts
        (bufferSystem.next stream call).httpBodyParts buffer.uncounted) stream call := by
  cases call with
  | «open» => exact ⟨invariant.open, (pending_open invariant).symm, nofun⟩
  | close => exact ⟨invariant.close, rfl, nofun⟩
  | read length =>
      rw [bufferSystem.emits_iff_of_eq (show bufferSystem.emits stream (.read length) =
        [(stream.read length).1] from rfl), List.forall_mem_singleton]
      change (stream.read length).2.Invariant ∧ stream.pending =
        [(stream.read length).1].flatMap ReadBuffer.bytes ++ (stream.read length).2.pending ∧
        Loses stream.httpBodyParts (stream.read length).2.httpBodyParts (stream.read length).1.uncounted
      rw [List.flatMap_singleton, ReadBuffer.bytes, List.append_assoc]
      by_cases isOpen : stream.streamStatus = .opened
      · have rounds := rounds_of_read invariant isOpen length
        exact ⟨rounds.invariant, rounds.pending, rounds.loses⟩
      · rw [read_of_not_opened invariant isOpen]
        exact ⟨invariant, rfl, Loses.refl _⟩

/-- The loading system sees the same stream, without the uncounted bytes. -/
theorem system_trace_cons (stream : AFMultipartBodyStream) (call : StreamCall)
    (rest : List StreamCall) :
    system.trace stream (call :: rest) =
      (bufferSystem.emits stream call).map ReadBuffer.counted ++
        system.trace (bufferSystem.next stream call) rest := by
  cases call <;> rfl

/-- However the stream is opened, read and closed, its reads take what its
parts have to send, in their order and each byte once, and deliver it but for
what they lose: where the stream of a part fails before it has delivered
anything, the call that comes to the failure loses all that the part had left
of its boundary and its headers, and no other call loses a byte. -/
theorem delivered_and_lost {stream : AFMultipartBodyStream} (invariant : stream.Invariant)
    (calls : List StreamCall) :
    system.trace stream calls = (bufferSystem.trace stream calls).map ReadBuffer.counted ∧
      (bufferSystem.trace stream calls).flatMap ReadBuffer.bytes ++
          (bufferSystem.run stream calls).pending = stream.pending ∧
        bufferSystem.Along (fun before call => bufferSystem.Emits (fun buffer =>
          Loses before.httpBodyParts (bufferSystem.next before call).httpBodyParts
            buffer.uncounted) before call) stream calls := by
  induction calls generalizing stream with
  | nil => exact ⟨rfl, rfl, trivial⟩
  | cons call rest inductionHypothesis =>
      rcases step_counts invariant call with ⟨kept, pending, loses⟩
      rcases inductionHypothesis kept with ⟨counted, taken, later⟩
      refine ⟨?_, ?_, loses, later⟩
      · rw [system_trace_cons, counted, EventSystem.trace_cons, List.map_append]
      · rw [EventSystem.trace_cons, List.flatMap_append, EventSystem.run_cons, List.append_assoc, taken,
          pending]

/-- A stream with two parts, of which the first is a file that cannot be
opened. -/
def brokenStream : AFMultipartBodyStream :=
  make (setInitialAndFinalBoundaries
    [AFHTTPBodyPart.make [] (text "b") (.url none) 3 false ⟨.notOpen, [], false, none⟩,
      AFHTTPBodyPart.make [] (text "b") (.data [1]) 1 true ⟨.notOpen, [], true, none⟩])

/-- A read that stops before the last byte of the header of the first part,
and reads of the rest before and after the stream is opened again. -/
def brokenCalls : List StreamCall :=
  [.open, .read 6, .read 40, .close, .open, .read 40]

theorem brokenStream_delivered_and_lost :
    system.trace brokenStream brokenCalls =
        (bufferSystem.trace brokenStream brokenCalls).map ReadBuffer.counted ∧
      (bufferSystem.trace brokenStream brokenCalls).flatMap ReadBuffer.bytes ++
          (bufferSystem.run brokenStream brokenCalls).pending = brokenStream.pending ∧
        bufferSystem.Along (fun before call => bufferSystem.Emits (fun buffer =>
          Loses before.httpBodyParts (bufferSystem.next before call).httpBodyParts
            buffer.uncounted) before call) brokenStream brokenCalls := by
  have valid : brokenStream.Invariant := by
    refine ⟨?_, flagsSet_setInitialAndFinalBoundaries _,
      fun _ early => absurd early (Nat.not_lt_zero _), Or.inl ⟨rfl, rfl, rfl⟩⟩
    intro part listed
    rcases List.mem_cons.mp listed with rfl | later
    · exact Or.inl ⟨rfl, by decide⟩
    · rw [List.mem_singleton.mp later]
      exact Or.inl ⟨rfl, by decide⟩
  exact delivered_and_lost valid brokenCalls

/-- How much is lost depends on how the stream is read: the last byte in front
of the missing file, or all seven. -/
example :
    (bufferSystem.trace brokenStream [.open, .read 6, .read 40]).map ReadBuffer.uncounted =
        [[], [10]] ∧
      (bufferSystem.trace brokenStream [.open, .read 40]).map ReadBuffer.uncounted =
        [[45, 45, 98, 13, 10, 13, 10]] := by
  decide +kernel

/-- The stream as a source of bytes. -/
def toSource (stream : AFMultipartBodyStream) : ByteSource UInt8 :=
  ⟨stream.pending, decide (stream.streamStatus = .opened)⟩

theorem take_drop_of_rounds {whole bytes rest : NSData} {limit : Nat} (same : bytes ++ rest = whole)
    (fits : bytes.length ≤ limit) (ends : limit ≤ bytes.length ∨ rest = []) :
    bytes = whole.take limit ∧ rest = whole.drop limit := by
  subst same
  rcases ends with full | finished
  · have room : limit = bytes.length := Nat.le_antisymm full fits
    subst room
    exact ⟨List.take_left.symm, List.drop_left.symm⟩
  · subst finished
    rw [List.append_nil]
    exact ⟨(List.take_of_length_le fits).symm, (List.drop_eq_nil_of_le fits).symm⟩

/-- A read of an open stream without failing parts takes the first bytes of
what is to come, as many as there is room for. -/
theorem read_of_opened {stream : AFMultipartBodyStream} (invariant : stream.Invariant)
    (sound : stream.Sound) (isOpen : stream.streamStatus = .opened) (length : Nat) :
    (stream.read length).1.counted = stream.pending.take (min length stream.numberOfBytesInPacket) ∧
      (stream.read length).2.pending =
        stream.pending.drop (min length stream.numberOfBytesInPacket) := by
  have rounds := rounds_of_read invariant isOpen length
  have same := rounds.pending
  rw [rounds.loses.eq_nil_of_sound sound, List.nil_append] at same
  apply take_drop_of_rounds same.symm rounds.fits
  rcases rounds.ends with full | finished | unsound
  · exact Or.inl full
  · right
    unfold pending
    rw [finished]
    rfl
  · exact absurd sound unsound

/-- The phases of the parts cannot be seen from outside: without failing
parts, the stream is a source of the bytes of all parts. -/
theorem refines_byteSource (packet : Nat) :
    EventSystem.Refines system (ByteSource.system packet) toSource fun stream =>
      stream.Invariant ∧ stream.Sound ∧ stream.numberOfBytesInPacket = packet where
  preserved := by
    rintro stream call ⟨invariant, sound, size⟩
    have kept := (step_counts invariant call).1
    cases call with
    | «open» =>
        refine ⟨kept, ?_⟩
        rcases open_cases invariant with same | opened
        · rw [show system.next stream .open = stream from same]
          exact ⟨sound, size⟩
        · rw [show system.next stream .open = _ from opened]
          exact ⟨sound, size⟩
    | close => exact ⟨kept, sound, size⟩
    | read length =>
        refine ⟨kept, ?_⟩
        change (stream.read length).2.Sound ∧ (stream.read length).2.numberOfBytesInPacket = packet
        by_cases isOpen : stream.streamStatus = .opened
        · have rounds := rounds_of_read invariant isOpen length
          exact ⟨rounds.sound sound, rounds.packet.trans size⟩
        · rw [read_of_not_opened invariant isOpen]
          exact ⟨sound, size⟩
  commutes := by
    rintro stream call ⟨invariant, sound, size⟩
    cases call with
    | «open» =>
        have opened : stream.open.streamStatus = .opened := by
          unfold AFMultipartBodyStream.open
          split
          · assumption
          · rfl
        change ByteSource.mk _ _ = ByteSource.mk _ _
        rw [show (system.next stream .open) = stream.open from rfl, pending_open invariant, opened]
        rfl
    | close => rfl
    | read length =>
        change (stream.read length).2.toSource = _
        unfold EventSystem.next
        by_cases isOpen : stream.streamStatus = .opened
        · have rounds := rounds_of_read invariant isOpen length
          have reads := read_of_opened invariant sound isOpen length
          rw [ByteSource.step_read_of_open packet length (show stream.toSource.isOpen = true from
            decide_eq_true isOpen), toSource, reads.2, rounds.status, size]
          rfl
        · rw [read_of_not_opened invariant isOpen, ByteSource.step_read_of_not_open packet length
            (show stream.toSource.isOpen = false from decide_eq_false isOpen)]
  emits := by
    rintro stream call ⟨invariant, sound, size⟩
    cases call with
    | «open» => rfl
    | close => rfl
    | read length =>
        change [(stream.read length).1.counted] = _
        unfold EventSystem.emits
        by_cases isOpen : stream.streamStatus = .opened
        · have reads := read_of_opened invariant sound isOpen length
          rw [ByteSource.step_read_of_open packet length (show stream.toSource.isOpen = true from
            decide_eq_true isOpen), reads.1, size]
          rfl
        · rw [read_of_not_opened invariant isOpen, ByteSource.step_read_of_not_open packet length
            (show stream.toSource.isOpen = false from decide_eq_false isOpen)]

/-- Every run of calls on a stream without failing parts is a run of a source
of the bytes of all parts: no order of opening, reading and closing, and no
sizes of the reads, show the parts and their phases. -/
theorem observed_as_byteSource {stream : AFMultipartBodyStream} (invariant : stream.Invariant)
    (sound : stream.Sound) (calls : List StreamCall) :
    system.trace stream calls =
        (ByteSource.system stream.numberOfBytesInPacket).trace stream.toSource calls ∧
      (system.run stream calls).toSource =
        (ByteSource.system stream.numberOfBytesInPacket).run stream.toSource calls :=
  ⟨(refines_byteSource stream.numberOfBytesInPacket).trace_eq ⟨invariant, sound, rfl⟩ calls,
    (refines_byteSource stream.numberOfBytesInPacket).run_eq ⟨invariant, sound, rfl⟩ calls⟩

/-- A stream with two parts and packets of three bytes. -/
def smallStream : AFMultipartBodyStream :=
  { make (setInitialAndFinalBoundaries
      [AFHTTPBodyPart.make [] (text "b") (.data [1, 2]) 2 true ⟨.notOpen, [], true, none⟩,
        AFHTTPBodyPart.make [] (text "b") (.url (some [3])) 1 false ⟨.notOpen, [], false, none⟩]) with
    numberOfBytesInPacket := 3 }

/-- A read within the header, one that a packet cuts, and one behind the end. -/
def smallCalls : List StreamCall :=
  [.open, .read 2, .read 9, .read 0, .close, .read 4]

theorem smallStream_observed :
    system.trace smallStream smallCalls = (ByteSource.system 3).trace smallStream.toSource smallCalls ∧
      (system.run smallStream smallCalls).toSource =
        (ByteSource.system 3).run smallStream.toSource smallCalls := by
  have valid : smallStream.Invariant := by
    refine ⟨?_, flagsSet_setInitialAndFinalBoundaries _,
      fun _ early => absurd early (Nat.not_lt_zero _), Or.inl ⟨rfl, rfl, rfl⟩⟩
    intro part listed
    rcases List.mem_cons.mp listed with rfl | later
    · exact Or.inl ⟨rfl, by decide⟩
    · rw [List.mem_singleton.mp later]
      exact Or.inl ⟨rfl, by decide⟩
  have sound : smallStream.Sound := by
    intro part listed
    rcases List.mem_cons.mp listed with rfl | later
    · rfl
    · rw [List.mem_singleton.mp later]
      rfl
  exact observed_as_byteSource valid sound smallCalls

end AFMultipartBodyStream
end AFNetworking
end Network
end HowBigDemo
