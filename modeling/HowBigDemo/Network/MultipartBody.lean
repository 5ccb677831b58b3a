import HowBigDemo.Network.QueryString

namespace HowBigDemo
namespace Network
namespace AFNetworking

open Library

/-!
# The parts of a multipart body

`LumiRequest postWithURL:` uploads its parameters as a multipart form.  The
body is not built in memory but read off its parts, and each
`AFHTTPBodyPart` is a machine with four phases that remembers how far it has
read the data of its phase.  A read may end anywhere, in the middle of a
boundary as well as between two phases.

The streams of the contents belong to Foundation.  Such a stream delivers
chunks, of which a read takes as much as it has room for, and notices its
end with the last byte or with the read after it; at the end it may fail
instead.

The theorems say that a read of a part takes the first bytes of what the
part still has to send, and something if there is room.  A read that ends in
the failure of the stream takes such bytes too, but its answer does not count
them.
-/

/-! ## Input streams -/

inductive NSStreamStatus
  | notOpen
  | opened
  | atEnd
  | closed
  | failed
  deriving DecidableEq

/-- A stream of Foundation, with what it still has to deliver. -/
structure NSInputStream where
  status : NSStreamStatus
  chunks : List NSData
  endsEagerly : Bool
  failure : Option NSError
  deriving DecidableEq

namespace NSInputStream

def «open» (stream : NSInputStream) : NSInputStream :=
  { stream with status := if stream.status = .notOpen then .opened else stream.status }

def close (stream : NSInputStream) : NSInputStream :=
  { stream with status := .closed }

/-- The status after a read that leaves the chunks. -/
def statusLeaving (stream : NSInputStream) (chunks : List NSData) : NSStreamStatus :=
  if chunks = [] ∧ stream.endsEagerly ∧ stream.failure = none then .atEnd else .opened

/-- `read:maxLength:`, which has no data where the method returns -1. -/
def read (stream : NSInputStream) (maxLength : Nat) : Option NSData × NSInputStream :=
  match stream.status with
  | .opened =>
    match stream.chunks with
    | [] =>
      if stream.failure = none then (some [], { stream with status := .atEnd })
      else (none, { stream with status := .failed })
    | chunk :: rest =>
      let chunks := if chunk.length ≤ maxLength then rest else chunk.drop maxLength :: rest
      (some (chunk.take maxLength),
        { stream with chunks := chunks, status := stream.statusLeaving chunks })
  | .atEnd => (some [], stream)
  | _ => (none, stream)

end NSInputStream

/-! ## Body parts -/

/-- The object that a part sends: data, a file with its content if it can be
opened, or a stream of the caller. -/
inductive Body
  | data (bytes : NSData)
  | url (content : Option NSData)
  | inputStream
  deriving DecidableEq

inductive ReadPhase
  | encapsulationBoundary
  | header
  | body
  | finalBoundary
  deriving DecidableEq

structure AFHTTPBodyPart where
  headers : List (NSString × NSString)
  boundary : NSString
  body : Body
  bodyContentLength : Nat
  inputStream : NSInputStream
  hasInitialBoundary : Bool
  hasFinalBoundary : Bool
  phase : ReadPhase
  phaseReadOffset : Nat
  deriving DecidableEq

/-- `dataUsingEncoding:NSUTF8StringEncoding`. -/
def dataUsingEncoding (string : NSString) : Option NSData :=
  (utf8Bytes string).map fun bytes => bytes.map UInt8.ofNat

/-- The data of a string, where nil has no bytes. -/
def encodedData (string : NSString) : NSData :=
  (dataUsingEncoding string).getD []

def crlf : NSString := [13, 10]

def initialBoundary (boundary : NSString) : NSString :=
  text "--" ++ boundary ++ crlf

def encapsulationBoundary (boundary : NSString) : NSString :=
  crlf ++ text "--" ++ boundary ++ crlf

def finalBoundary (boundary : NSString) : NSString :=
  crlf ++ text "--" ++ boundary ++ text "--" ++ crlf

namespace AFHTTPBodyPart

/-- The stream that is made for a body when it is first asked for. -/
def streamOf (endsEagerly : Bool) : Body -> NSInputStream -> NSInputStream
  | .data bytes, _ => ⟨.notOpen, [bytes], endsEagerly, none⟩
  | .url (some content), _ => ⟨.notOpen, [content], endsEagerly, none⟩
  | .url none, _ => ⟨.notOpen, [], endsEagerly, some (.plain "NSPOSIXErrorDomain" 2)⟩
  | .inputStream, stream => stream

def stringForHeaders (part : AFHTTPBodyPart) : NSString :=
  (part.headers.flatMap fun header => header.1 ++ text ": " ++ header.2 ++ crlf) ++ crlf

def encapsulationBoundaryData (part : AFHTTPBodyPart) : NSData :=
  encodedData
    (if part.hasInitialBoundary then initialBoundary part.boundary
      else encapsulationBoundary part.boundary)

def headersData (part : AFHTTPBodyPart) : NSData :=
  encodedData part.stringForHeaders

def closingBoundaryData (part : AFHTTPBodyPart) : NSData :=
  if part.hasFinalBoundary then encodedData (finalBoundary part.boundary) else []

def contentLength (part : AFHTTPBodyPart) : Nat :=
  part.encapsulationBoundaryData.length + part.headersData.length + part.bodyContentLength +
    part.closingBoundaryData.length

def hasBytesAvailable (part : AFHTTPBodyPart) : Bool :=
  if part.phase = .finalBoundary then true
  else
    match part.inputStream.status with
    | .notOpen => true
    | .opened => true
    | _ => false

def transitionToNextPhase (part : AFHTTPBodyPart) : AFHTTPBodyPart :=
  match part.phase with
  | .encapsulationBoundary => { part with phase := .header, phaseReadOffset := 0 }
  | .header =>
    { part with inputStream := part.inputStream.open, phase := .body, phaseReadOffset := 0 }
  | .body =>
    { part with inputStream := part.inputStream.close, phase := .finalBoundary, phaseReadOffset := 0 }
  | .finalBoundary => { part with phase := .encapsulationBoundary, phaseReadOffset := 0 }

/-- `readData:intoBuffer:maxLength:`. -/
def readData (part : AFHTTPBodyPart) (data : NSData) (maxLength : Nat) :
    NSData × AFHTTPBodyPart :=
  let bytes := (data.drop part.phaseReadOffset).take maxLength
  let part := { part with phaseReadOffset := part.phaseReadOffset + bytes.length }
  (bytes, if data.length ≤ part.phaseReadOffset then part.transitionToNextPhase else part)

/-- A phase whose data is at hand is read if the part is in it. -/
def readPhase (phase : ReadPhase) (data : NSData) (part : AFHTTPBodyPart) (maxLength : Nat) :
    NSData × AFHTTPBodyPart :=
  if part.phase = phase then part.readData data maxLength else ([], part)

/-- The body phase reads from the input stream. -/
def readBody (part : AFHTTPBodyPart) (maxLength : Nat) : Option NSData × AFHTTPBodyPart :=
  if part.phase = .body then
    match part.inputStream.read maxLength with
    | (none, stream) => (none, { part with inputStream := stream })
    | (some bytes, stream) =>
      let part := { part with inputStream := stream }
      (some bytes,
        match stream.status with
        | .atEnd => part.transitionToNextPhase
        | .closed => part.transitionToNextPhase
        | .failed => part.transitionToNextPhase
        | _ => part)
  else (some [], part)

/-- `read:maxLength:` of a part.  Where the method returns -1, the error holds
the bytes that it has copied into the buffer before. -/
def read (part : AFHTTPBodyPart) (length : Nat) : Except NSData NSData × AFHTTPBodyPart :=
  let (boundaryBytes, part) :=
    part.readPhase .encapsulationBoundary part.encapsulationBoundaryData length
  let (headerBytes, part) :=
    part.readPhase .header part.headersData (length - boundaryBytes.length)
  match part.readBody (length - boundaryBytes.length - headerBytes.length) with
  | (none, part) => (.error (boundaryBytes ++ headerBytes), part)
  | (some bodyBytes, part) =>
    let (closingBytes, part) := part.readPhase .finalBoundary part.closingBoundaryData
      (length - boundaryBytes.length - headerBytes.length - bodyBytes.length)
    (.ok (boundaryBytes ++ headerBytes ++ bodyBytes ++ closingBytes), part)

/-- `init`, after which `transitionToNextPhase` has left phase zero, with the
properties that its callers set. -/
def make (headers : List (NSString × NSString)) (boundary : NSString) (body : Body)
    (bodyContentLength : Nat) (endsEagerly : Bool) (stream : NSInputStream) : AFHTTPBodyPart where
  headers := headers
  boundary := boundary
  body := body
  bodyContentLength := bodyContentLength
  inputStream := streamOf endsEagerly body stream
  hasInitialBoundary := false
  hasFinalBoundary := false
  phase := .encapsulationBoundary
  phaseReadOffset := 0

/-- `copyWithZone:`.  A stream of the caller is shared with the copy. -/
def copy (part : AFHTTPBodyPart) : AFHTTPBodyPart :=
  make part.headers part.boundary part.body part.bodyContentLength part.inputStream.endsEagerly
    part.inputStream

end AFHTTPBodyPart

/-! ## What a part still has to send -/

namespace AFHTTPBodyPart

/-- The boundary behind a part, which a failing part never comes to. -/
def tail (part : AFHTTPBodyPart) : NSData :=
  if part.inputStream.failure = none then part.closingBoundaryData else []

/-- The content of the part from its phase and its offset in it on. -/
def ahead (part : AFHTTPBodyPart) : NSData :=
  match part.phase with
  | .encapsulationBoundary =>
    part.encapsulationBoundaryData.drop part.phaseReadOffset ++ part.headersData ++
      part.inputStream.chunks.flatten ++ part.tail
  | .header =>
    part.headersData.drop part.phaseReadOffset ++ part.inputStream.chunks.flatten ++ part.tail
  | .body => part.inputStream.chunks.flatten ++ part.tail
  | .finalBoundary => part.closingBoundaryData.drop part.phaseReadOffset

/-- What a part with bytes available still has to send. -/
def pending (part : AFHTTPBodyPart) : NSData :=
  if part.hasBytesAvailable then part.ahead else []

/-- The stream of the part fails before it delivers anything more. -/
def Unreadable (part : AFHTTPBodyPart) : Prop :=
  part.inputStream.failure ≠ none ∧ part.inputStream.chunks = []

/-- A part that is being read or has not been started. -/
def Readable (part : AFHTTPBodyPart) : Prop :=
  match part.phase with
  | .encapsulationBoundary =>
    part.inputStream.status = .notOpen ∧
      part.phaseReadOffset < part.encapsulationBoundaryData.length
  | .header =>
    part.inputStream.status = .notOpen ∧ part.phaseReadOffset ≤ part.headersData.length
  | .body => part.inputStream.status = .opened
  | .finalBoundary =>
    part.inputStream.status = .closed ∧ part.phaseReadOffset ≤ part.closingBoundaryData.length ∧
      part.inputStream.failure = none

/-- A part that has been read, or whose stream has failed. -/
def Finished (part : AFHTTPBodyPart) : Prop :=
  part.phase = .encapsulationBoundary ∧ part.inputStream.status = .closed ∨
    part.phase = .body ∧ part.inputStream.status = .failed

def Valid (part : AFHTTPBodyPart) : Prop :=
  part.Readable ∨ part.Finished

theorem Readable.hasBytesAvailable {part : AFHTTPBodyPart} (readable : part.Readable) :
    part.hasBytesAvailable = true := by
  rcases part with ⟨_, _, _, _, stream, _, _, phase, _⟩
  unfold Readable at readable
  cases phase with
  | encapsulationBoundary =>
      change stream.status = .notOpen ∧ _ at readable
      simp [AFHTTPBodyPart.hasBytesAvailable, readable.1]
  | header =>
      change stream.status = .notOpen ∧ _ at readable
      simp [AFHTTPBodyPart.hasBytesAvailable, readable.1]
  | body =>
      change stream.status = .opened at readable
      simp [AFHTTPBodyPart.hasBytesAvailable, readable]
  | finalBoundary => rfl

theorem Finished.hasBytesAvailable {part : AFHTTPBodyPart} (finished : part.Finished) :
    part.hasBytesAvailable = false := by
  rcases finished with ⟨phase, status⟩ | ⟨phase, status⟩ <;>
    simp [AFHTTPBodyPart.hasBytesAvailable, phase, status]

theorem Valid.readable {part : AFHTTPBodyPart} (valid : part.Valid)
    (available : part.hasBytesAvailable = true) : part.Readable := by
  rcases valid with readable | finished
  · exact readable
  · rw [finished.hasBytesAvailable] at available
    cases available

theorem Readable.pending {part : AFHTTPBodyPart} (readable : part.Readable) :
    part.pending = part.ahead :=
  if_pos readable.hasBytesAvailable

theorem pending_of_not_available {part : AFHTTPBodyPart}
    (notAvailable : part.hasBytesAvailable = false) : part.pending = [] :=
  if_neg (by rw [notAvailable]; exact Bool.false_ne_true)

/-- How many phases lie ahead, the present one included. -/
def phasesAhead (part : AFHTTPBodyPart) : Nat :=
  match part.phase with
  | .encapsulationBoundary => 4
  | .header => 3
  | .body => 2
  | .finalBoundary => 1

/-- How many phases and chunks lie ahead. -/
def steps (part : AFHTTPBodyPart) : Nat :=
  if part.hasBytesAvailable then part.inputStream.chunks.length + part.phasesAhead else 0

/-- What one read does to a part: it takes the first bytes of what the part
still has to send. -/
structure Takes (before after : AFHTTPBodyPart) (bytes : NSData) : Prop where
  pending : before.pending = bytes ++ after.pending
  steps_le : after.steps ≤ before.steps
  failure : after.inputStream.failure = before.inputStream.failure
  unopened : after.inputStream.status = .notOpen ->
    before.inputStream.status = .notOpen ∧ after.inputStream.chunks = before.inputStream.chunks
  hasInitialBoundary : after.hasInitialBoundary = before.hasInitialBoundary
  hasFinalBoundary : after.hasFinalBoundary = before.hasFinalBoundary

theorem Takes.refl (part : AFHTTPBodyPart) : Takes part part [] :=
  ⟨rfl, Nat.le_refl _, rfl, fun notOpen => ⟨notOpen, rfl⟩, rfl, rfl⟩

theorem Takes.trans {first second third : AFHTTPBodyPart} {bytes later : NSData}
    (takes : Takes first second bytes) (takesLater : Takes second third later) :
    Takes first third (bytes ++ later) where
  pending := by rw [takes.pending, takesLater.pending, List.append_assoc]
  steps_le := Nat.le_trans takesLater.steps_le takes.steps_le
  failure := takesLater.failure.trans takes.failure
  unopened := by
    intro notOpen
    rcases takesLater.unopened notOpen with ⟨notOpenBetween, same⟩
    rcases takes.unopened notOpenBetween with ⟨notOpenBefore, sameBefore⟩
    exact ⟨notOpenBefore, same.trans sameBefore⟩
  hasInitialBoundary := takesLater.hasInitialBoundary.trans takes.hasInitialBoundary
  hasFinalBoundary := takesLater.hasFinalBoundary.trans takes.hasFinalBoundary

/-- Reading data leaves a rest of it, or takes all of it and ends the phase. -/
theorem readData_cases (part : AFHTTPBodyPart) (data : NSData) (maxLength : Nat) :
    (part.readData data maxLength =
        (data.drop part.phaseReadOffset, part.transitionToNextPhase) ∧
        (data.drop part.phaseReadOffset).length ≤ maxLength) ∨
      (Exists fun bytes => bytes.length = maxLength ∧
        part.phaseReadOffset + bytes.length < data.length ∧
        data.drop part.phaseReadOffset = bytes ++ data.drop (part.phaseReadOffset + bytes.length) ∧
        part.readData data maxLength =
          (bytes, { part with phaseReadOffset := part.phaseReadOffset + bytes.length })) := by
  have taken : ((data.drop part.phaseReadOffset).take maxLength).length =
      min maxLength (data.length - part.phaseReadOffset) := by
    rw [List.length_take, List.length_drop]
  by_cases ends : data.length ≤ part.phaseReadOffset + ((data.drop part.phaseReadOffset).take maxLength).length
  · left
    have fits : (data.drop part.phaseReadOffset).length ≤ maxLength := by
      rw [List.length_drop]
      omega
    refine ⟨?_, fits⟩
    unfold readData
    simp only
    rw [if_pos ends, List.take_of_length_le fits]
    unfold transitionToNextPhase
    rcases part with ⟨_, _, _, _, _, _, _, phase, _⟩
    cases phase <;> rfl
  · right
    refine ⟨(data.drop part.phaseReadOffset).take maxLength, by omega, by omega, ?_, ?_⟩
    · rw [← List.drop_drop]
      have cut : ((data.drop part.phaseReadOffset).take maxLength).length = maxLength := by omega
      rw [cut, List.take_append_drop]
    · unfold readData
      simp only
      rw [if_neg ends]

/-- A read that was not for nothing. -/
def Moves (before after : AFHTTPBodyPart) (bytes : NSData) : Prop :=
  bytes ≠ [] ∨ after.steps < before.steps

theorem Moves.append_takes {first second third : AFHTTPBodyPart} {bytes later : NSData}
    (moves : Moves first second bytes) (takes : Takes second third later) :
    Moves first third (bytes ++ later) := by
  rcases moves with nonempty | fewer
  · exact Or.inl fun empty => nonempty (List.append_eq_nil_iff.mp empty).1
  · exact Or.inr (Nat.lt_of_le_of_lt takes.steps_le fewer)

theorem Takes.append_moves {first second third : AFHTTPBodyPart} {bytes later : NSData}
    (takes : Takes first second bytes) (moves : Moves second third later) :
    Moves first third (bytes ++ later) := by
  rcases moves with nonempty | fewer
  · exact Or.inl fun empty => nonempty (List.append_eq_nil_iff.mp empty).2
  · exact Or.inr (Nat.lt_of_lt_of_le fewer takes.steps_le)

/-- The result of one of the phases in `read:maxLength:`, with what is known
of the part after it. -/
structure Phased (part : AFHTTPBodyPart) (phase : ReadPhase) (maxLength : Nat)
    (after : AFHTTPBodyPart -> Prop) (result : NSData × AFHTTPBodyPart) : Prop where
  after : after result.2
  takes : Takes part result.2 result.1
  length_le : result.1.length ≤ maxLength
  moves : part.phase = phase -> 0 < maxLength -> Moves part result.2 result.1
  skips : part.phase ≠ phase -> result = ([], part)

theorem readPhase_of_ne {part : AFHTTPBodyPart} {phase : ReadPhase} (differs : part.phase ≠ phase)
    (data : NSData) (maxLength : Nat) : part.readPhase phase data maxLength = ([], part) :=
  if_neg differs

theorem phased_of_ne {part : AFHTTPBodyPart} {phase : ReadPhase} {after : AFHTTPBodyPart -> Prop}
    (differs : part.phase ≠ phase) (holds : after part) (data : NSData) (maxLength : Nat) :
    Phased part phase maxLength after (part.readPhase phase data maxLength) := by
  rw [readPhase_of_ne differs]
  exact ⟨holds, Takes.refl part, Nat.zero_le _, fun same => absurd same differs, fun _ => rfl⟩

theorem Readable.steps {part : AFHTTPBodyPart} (readable : part.Readable) :
    part.steps = part.inputStream.chunks.length + part.phasesAhead :=
  if_pos readable.hasBytesAvailable

theorem Finished.steps {part : AFHTTPBodyPart} (finished : part.Finished) : part.steps = 0 :=
  if_neg (by rw [finished.hasBytesAvailable]; exact Bool.false_ne_true)

theorem transitionToNextPhase_frame (part : AFHTTPBodyPart) :
    part.transitionToNextPhase.inputStream.failure = part.inputStream.failure ∧
      part.transitionToNextPhase.inputStream.chunks = part.inputStream.chunks ∧
        part.transitionToNextPhase.hasInitialBoundary = part.hasInitialBoundary ∧
          part.transitionToNextPhase.hasFinalBoundary = part.hasFinalBoundary := by
  unfold transitionToNextPhase
  rcases part with ⟨_, _, _, _, _, _, _, phase, _⟩
  cases phase <;> exact ⟨rfl, rfl, rfl, rfl⟩

/-- The end of a phase leaves no stream unopened that was not so before. -/
theorem transitionToNextPhase_notOpen {part : AFHTTPBodyPart}
    (notOpen : part.transitionToNextPhase.inputStream.status = .notOpen) :
    part.inputStream.status = .notOpen := by
  rcases part with ⟨_, _, _, _, stream, _, _, phase, _⟩
  cases phase with
  | encapsulationBoundary => exact notOpen
  | header =>
      change (if stream.status = .notOpen then NSStreamStatus.opened else stream.status) = .notOpen at notOpen
      by_cases isNotOpen : stream.status = .notOpen
      · exact isNotOpen
      · rwa [if_neg isNotOpen] at notOpen
  | body => cases notOpen
  | finalBoundary => exact notOpen

/-- A phase with its data at hand, given what is known of the part after all
of the data and of the part after some of it. -/
theorem phased_of_readData {part : AFHTTPBodyPart} {phase : ReadPhase}
    {after : AFHTTPBodyPart -> Prop} {data rest : NSData} (maxLength : Nat)
    (inPhase : part.phase = phase)
    (before : part.pending = data.drop part.phaseReadOffset ++ rest)
    (whole : after part.transitionToNextPhase ∧ part.transitionToNextPhase.pending = rest ∧
      part.transitionToNextPhase.steps < part.steps)
    (partly : forall offset, offset < data.length ->
      after { part with phaseReadOffset := offset } ∧
        AFHTTPBodyPart.pending { part with phaseReadOffset := offset } = data.drop offset ++ rest ∧
        AFHTTPBodyPart.steps { part with phaseReadOffset := offset } ≤ part.steps) :
    Phased part phase maxLength after (part.readPhase phase data maxLength) := by
  rw [readPhase, if_pos inPhase]
  rcases readData_cases part data maxLength with
    ⟨result, fits⟩ | ⟨bytes, fills, short, split, result⟩
  · have frame := transitionToNextPhase_frame part
    rw [result]
    exact ⟨whole.1, ⟨by rw [before, whole.2.1], Nat.le_of_lt whole.2.2, frame.1,
      fun notOpen => ⟨transitionToNextPhase_notOpen notOpen, frame.2.1⟩, frame.2.2.1, frame.2.2.2⟩,
      fits, fun _ _ => Or.inr whole.2.2, fun differs => absurd inPhase differs⟩
  · have known := partly _ short
    rw [result]
    refine ⟨known.1, ⟨?_, known.2.2, rfl, fun notOpen => ⟨notOpen, rfl⟩, rfl, rfl⟩,
      Nat.le_of_eq fills, ?_, fun differs => absurd inPhase differs⟩
    · rw [before, known.2.1, split, List.append_assoc]
    · intro _ positive
      rw [← fills] at positive
      exact Or.inl (List.ne_nil_of_length_pos positive)

theorem phased_encapsulationBoundary {part : AFHTTPBodyPart} (readable : part.Readable)
    (maxLength : Nat) :
    Phased part .encapsulationBoundary maxLength Readable
      (part.readPhase .encapsulationBoundary part.encapsulationBoundaryData maxLength) := by
  by_cases inPhase : part.phase = .encapsulationBoundary
  · rcases part with ⟨headers, boundary, body, size, stream, isFirst, isLast, phase, offset⟩
    cases inPhase
    have whole : Readable (transitionToNextPhase
        ⟨headers, boundary, body, size, stream, isFirst, isLast, .encapsulationBoundary, offset⟩) :=
      ⟨readable.1, Nat.zero_le _⟩
    apply phased_of_readData maxLength rfl
    · rw [readable.pending]
      simp only [ahead, List.append_assoc]
      rfl
    · refine ⟨whole, ?_, ?_⟩
      · rw [whole.pending]
        simp only [ahead, transitionToNextPhase, List.drop_zero, List.append_assoc]
        rfl
      · rw [whole.steps, readable.steps]
        change stream.chunks.length + 3 < stream.chunks.length + 4
        omega
    · intro further short
      have partly : Readable
          ⟨headers, boundary, body, size, stream, isFirst, isLast, .encapsulationBoundary, further⟩ :=
        ⟨readable.1, short⟩
      refine ⟨partly, ?_, ?_⟩
      · rw [partly.pending]
        simp only [ahead, List.append_assoc]
        rfl
      · rw [partly.steps, readable.steps]
        exact Nat.le_refl _
  · exact phased_of_ne inPhase readable _ maxLength

theorem phased_header {part : AFHTTPBodyPart} (readable : part.Readable) (maxLength : Nat) :
    Phased part .header maxLength Readable
      (part.readPhase .header part.headersData maxLength) := by
  by_cases inPhase : part.phase = .header
  · rcases part with ⟨headers, boundary, body, size, stream, isFirst, isLast, phase, offset⟩
    cases inPhase
    have whole : Readable (transitionToNextPhase
        ⟨headers, boundary, body, size, stream, isFirst, isLast, .header, offset⟩) :=
      if_pos readable.1
    apply phased_of_readData maxLength rfl
    · rw [readable.pending]
      simp only [ahead, List.append_assoc]
      rfl
    · refine ⟨whole, whole.pending, ?_⟩
      rw [whole.steps, readable.steps]
      change stream.chunks.length + 2 < stream.chunks.length + 3
      omega
    · intro further short
      have partly : Readable
          ⟨headers, boundary, body, size, stream, isFirst, isLast, .header, further⟩ :=
        ⟨readable.1, Nat.le_of_lt short⟩
      refine ⟨partly, ?_, ?_⟩
      · rw [partly.pending]
        simp only [ahead, List.append_assoc]
        rfl
      · rw [partly.steps, readable.steps]
        exact Nat.le_refl _
  · exact phased_of_ne inPhase readable _ maxLength

theorem phased_finalBoundary {part : AFHTTPBodyPart} (readable : part.Readable) (maxLength : Nat) :
    Phased part .finalBoundary maxLength Valid
      (part.readPhase .finalBoundary part.closingBoundaryData maxLength) := by
  by_cases inPhase : part.phase = .finalBoundary
  · rcases part with ⟨headers, boundary, body, size, stream, isFirst, isLast, phase, offset⟩
    cases inPhase
    have whole : Finished (transitionToNextPhase
        ⟨headers, boundary, body, size, stream, isFirst, isLast, .finalBoundary, offset⟩) :=
      Or.inl ⟨rfl, readable.1⟩
    apply phased_of_readData maxLength rfl
    · rw [readable.pending]
      exact (List.append_nil _).symm
    · refine ⟨Or.inr whole, pending_of_not_available whole.hasBytesAvailable, ?_⟩
      rw [readable.steps, whole.steps]
      exact Nat.succ_pos _
    · intro further short
      have partly : Readable
          ⟨headers, boundary, body, size, stream, isFirst, isLast, .finalBoundary, further⟩ :=
        ⟨readable.1, Nat.le_of_lt short, readable.2.2⟩
      refine ⟨Or.inl partly, ?_, ?_⟩
      · rw [partly.pending]
        exact (List.append_nil _).symm
      · rw [partly.steps, readable.steps]
        exact Nat.le_refl _
  · exact phased_of_ne inPhase (Or.inl readable) _ maxLength

/-- What an open stream does: it fails, it delivers the last of its content
and ends, or it delivers some and stays open. -/
inductive StreamRead (stream : NSInputStream) (maxLength : Nat) : Option NSData -> NSInputStream -> Prop
  | fails (failed : stream.failure ≠ none) (noMore : stream.chunks = []) :
      StreamRead stream maxLength none { stream with status := .failed }
  | ends (sound : stream.failure = none) (fits : stream.chunks.flatten.length ≤ maxLength) :
      StreamRead stream maxLength (some stream.chunks.flatten)
        { stream with chunks := [], status := .atEnd }
  | continues (bytes : NSData) (chunks : List NSData)
      (content : stream.chunks.flatten = bytes ++ chunks.flatten)
      (fits : bytes.length ≤ maxLength) (fewer : chunks.length ≤ stream.chunks.length)
      (moves : 0 < maxLength -> bytes ≠ [] ∨ chunks.length < stream.chunks.length) :
      StreamRead stream maxLength (some bytes) { stream with chunks := chunks, status := .opened }

/-- A read takes the first chunk or a part of it. -/
theorem streamRead_cons {stream : NSInputStream} {chunk : NSData} {rest : List NSData}
    (isOpen : stream.status = .opened) (chunks : stream.chunks = chunk :: rest) (maxLength : Nat) :
    StreamRead stream maxLength (stream.read maxLength).1 (stream.read maxLength).2 := by
  rcases stream with ⟨status, streamChunks, endsEagerly, failure⟩
  cases isOpen
  cases chunks
  have bytesFit : (chunk.take maxLength).length ≤ maxLength := by
    rw [List.length_take]
    exact Nat.min_le_left _ _
  by_cases whole : chunk.length ≤ maxLength
  · have chunkTaken : chunk.take maxLength = chunk := List.take_of_length_le whole
    by_cases ends : rest = [] ∧ endsEagerly = true ∧ failure = none
    · have result : NSInputStream.read ⟨.opened, chunk :: rest, endsEagerly, failure⟩ maxLength =
          (some chunk, ⟨.atEnd, rest, endsEagerly, failure⟩) := by
        simp only [NSInputStream.read, NSInputStream.statusLeaving, if_pos whole, if_pos ends, chunkTaken]
      rw [result]
      rcases ends with ⟨rfl, _, sound⟩
      have content : [chunk].flatten = chunk := List.flatten_singleton
      have ended := @StreamRead.ends ⟨.opened, [chunk], endsEagerly, failure⟩ maxLength sound
        (by rw [content]; exact whole)
      rw [content] at ended
      exact ended
    · have result : NSInputStream.read ⟨.opened, chunk :: rest, endsEagerly, failure⟩ maxLength =
          (some chunk, ⟨.opened, rest, endsEagerly, failure⟩) := by
        simp only [NSInputStream.read, NSInputStream.statusLeaving, if_pos whole, if_neg ends, chunkTaken]
      rw [result]
      exact StreamRead.continues chunk rest List.flatten_cons whole (Nat.le_succ _)
        fun _ => Or.inr (Nat.lt_succ_self _)
  · have result : NSInputStream.read ⟨.opened, chunk :: rest, endsEagerly, failure⟩ maxLength =
        (some (chunk.take maxLength),
          ⟨.opened, chunk.drop maxLength :: rest, endsEagerly, failure⟩) := by
      simp only [NSInputStream.read, NSInputStream.statusLeaving, if_neg whole]
      rw [if_neg (fun ends => List.cons_ne_nil _ _ ends.1)]
    rw [result]
    refine StreamRead.continues _ _ ?_ bytesFit (Nat.le_refl _) fun positive => Or.inl ?_
    · change chunk ++ rest.flatten = _ ++ (_ ++ rest.flatten)
      rw [← List.append_assoc, List.take_append_drop]
    · apply List.ne_nil_of_length_pos
      rw [List.length_take]
      omega

theorem streamRead_of_opened {stream : NSInputStream} (isOpen : stream.status = .opened)
    (maxLength : Nat) :
    StreamRead stream maxLength (stream.read maxLength).1 (stream.read maxLength).2 := by
  cases chunks : stream.chunks with
  | cons chunk rest => exact streamRead_cons isOpen chunks maxLength
  | nil =>
      rcases stream with ⟨status, streamChunks, endsEagerly, failure⟩
      cases isOpen
      cases chunks
      cases failure with
      | none => exact @StreamRead.ends ⟨.opened, [], endsEagerly, none⟩ maxLength rfl (Nat.zero_le _)
      | some error =>
          exact @StreamRead.fails ⟨.opened, [], endsEagerly, some error⟩ maxLength nofun rfl

/-- A read in which the stream of a part fails: the part has sent everything
that it had to, and the read has copied what was left of it. -/
structure Fails (before after : AFHTTPBodyPart) (copied : NSData) : Prop where
  finished : after.Finished
  pending : before.pending = copied
  failed : before.inputStream.failure ≠ none
  noMore : before.inputStream.chunks = []
  failure : after.inputStream.failure = before.inputStream.failure
  hasInitialBoundary : after.hasInitialBoundary = before.hasInitialBoundary
  hasFinalBoundary : after.hasFinalBoundary = before.hasFinalBoundary

theorem tail_of_failure {part : AFHTTPBodyPart} (failed : part.inputStream.failure ≠ none) :
    part.tail = [] :=
  if_neg failed

theorem readBody_cases {part : AFHTTPBodyPart} (readable : part.Readable) (maxLength : Nat) :
    (Exists fun after => part.readBody maxLength = (none, after) ∧ Fails part after []) ∨
      (Exists fun bytes => Exists fun after => part.readBody maxLength = (some bytes, after) ∧
        Phased part .body maxLength Readable (bytes, after)) := by
  by_cases inPhase : part.phase = .body
  · rcases part with ⟨headers, boundary, body, size, stream, isFirst, isLast, phase, offset⟩
    cases inPhase
    have isOpen : stream.status = .opened := readable
    have before := readable.pending
    have stepsBefore := readable.steps
    have streamRead := streamRead_of_opened isOpen maxLength
    revert streamRead
    unfold readBody
    rw [if_pos rfl]
    change StreamRead stream maxLength _ _ -> _
    rcases stream.read maxLength with ⟨answer, left⟩
    intro streamRead
    cases streamRead with
    | fails failed noMore =>
        left
        refine ⟨_, rfl, Or.inr ⟨rfl, rfl⟩, ?_, failed, noMore, rfl, rfl, rfl⟩
        rw [before]
        change stream.chunks.flatten ++ AFHTTPBodyPart.tail _ = []
        rw [tail_of_failure failed, noMore]
        rfl
    | ends sound fits =>
        right
        have after : Readable ⟨headers, boundary, body, size,
            { stream with chunks := [], status := .closed }, isFirst, isLast, .finalBoundary, 0⟩ :=
          ⟨rfl, Nat.zero_le _, sound⟩
        have fewer : AFHTTPBodyPart.steps ⟨headers, boundary, body, size,
            { stream with chunks := [], status := .closed }, isFirst, isLast, .finalBoundary, 0⟩ <
            AFHTTPBodyPart.steps
              ⟨headers, boundary, body, size, stream, isFirst, isLast, .body, offset⟩ := by
          rw [after.steps, stepsBefore]
          change 0 + 1 < stream.chunks.length + 2
          omega
        refine ⟨_, _, rfl, after, ⟨?_, Nat.le_of_lt fewer, rfl, nofun, rfl, rfl⟩, fits,
          fun _ _ => Or.inr fewer, fun differs => absurd rfl differs⟩
        have noTail : AFHTTPBodyPart.tail
            ⟨headers, boundary, body, size, stream, isFirst, isLast, .body, offset⟩ = _ := if_pos sound
        rw [before]
        change stream.chunks.flatten ++ AFHTTPBodyPart.tail _ = stream.chunks.flatten ++ _
        rw [noTail]
        exact congrArg _ after.pending.symm
    | continues bytes chunks content fits fewer moves =>
        right
        have after : Readable ⟨headers, boundary, body, size,
            { stream with chunks := chunks, status := .opened }, isFirst, isLast, .body, offset⟩ := rfl
        have stepsAfter := after.steps
        refine ⟨_, _, rfl, after, ⟨?_, ?_, rfl, nofun, rfl, rfl⟩, fits, fun _ positive => ?_,
          fun differs => absurd rfl differs⟩
        · rw [before]
          change stream.chunks.flatten ++ _ = _
          rw [content, List.append_assoc]
          exact congrArg _ after.pending.symm
        · rw [stepsBefore]
          exact Nat.le_trans (Nat.le_of_eq stepsAfter) (Nat.add_le_add_right fewer 2)
        · rcases moves positive with nonempty | shorter
          · exact Or.inl nonempty
          · right
            rw [stepsBefore]
            exact Nat.lt_of_le_of_lt (Nat.le_of_eq stepsAfter) (Nat.add_lt_add_right shorter 2)
  · right
    exact ⟨[], part, if_neg inPhase, readable, Takes.refl part, Nat.zero_le _,
      fun same => absurd same inPhase, fun _ => rfl⟩

theorem Fails.of_takes {before part after : AFHTTPBodyPart} {bytes : NSData}
    (takes : Takes before part bytes)
    (sameChunks : part.inputStream.chunks = before.inputStream.chunks)
    (fails : Fails part after []) : Fails before after bytes where
  finished := fails.finished
  pending := by rw [takes.pending, fails.pending, List.append_nil]
  failed := by
    rw [← takes.failure]
    exact fails.failed
  noMore := sameChunks.symm.trans fails.noMore
  failure := fails.failure.trans takes.failure
  hasInitialBoundary := fails.hasInitialBoundary.trans takes.hasInitialBoundary
  hasFinalBoundary := fails.hasFinalBoundary.trans takes.hasFinalBoundary

/-! ## Parts that can only fail -/

theorem transitionToNextPhase_phase_ne (part : AFHTTPBodyPart) :
    part.transitionToNextPhase.phase ≠ part.phase := by
  rcases part with ⟨_, _, _, _, _, _, _, phase, _⟩
  cases phase <;> exact nofun

/-- The phases with their data at hand leave the chunks of the stream. -/
theorem readPhase_chunks (phase : ReadPhase) (data : NSData) (part : AFHTTPBodyPart)
    (maxLength : Nat) :
    (part.readPhase phase data maxLength).2.inputStream.chunks = part.inputStream.chunks := by
  unfold readPhase
  split
  · rcases readData_cases part data maxLength with ⟨result, _⟩ | ⟨bytes, _, _, _, result⟩
    · rw [result]
      exact (transitionToNextPhase_frame part).2.1
    · rw [result]
  · rfl

/-- A phase either ends, or it keeps the part in it by filling the room. -/
theorem readPhase_cases {part : AFHTTPBodyPart} {phase : ReadPhase} (inPhase : part.phase = phase)
    (data : NSData) (maxLength : Nat) :
    (part.readPhase phase data maxLength).2 = part.transitionToNextPhase ∨
      (part.readPhase phase data maxLength).1.length = maxLength ∧
        Exists fun offset => offset < data.length ∧
          (part.readPhase phase data maxLength).2 = { part with phaseReadOffset := offset } := by
  rw [readPhase, if_pos inPhase]
  rcases readData_cases part data maxLength with ⟨result, _⟩ | ⟨bytes, fills, short, _, result⟩
  · rw [result]
    exact Or.inl rfl
  · rw [result]
    exact Or.inr ⟨fills, _, short, rfl⟩

/-- A part that two phases leave in front of its body has filled the room, and
has something left. -/
theorem full_of_phases {part : AFHTTPBodyPart} {length : Nat}
    {boundaryBytes headerBytes : NSData} {second third : AFHTTPBodyPart}
    (boundaryResult : part.readPhase .encapsulationBoundary part.encapsulationBoundaryData length =
      (boundaryBytes, second))
    (headerResult : second.readPhase .header second.headersData (length - boundaryBytes.length) =
      (headerBytes, third))
    (readable : third.Readable) (notBody : third.phase ≠ .body)
    (notFinal : third.phase ≠ .finalBoundary) :
    third.pending ≠ [] ∧ length ≤ (boundaryBytes ++ headerBytes).length := by
  rw [readable.pending, List.length_append]
  by_cases inHeader : second.phase = .header
  · have reads := readPhase_cases inHeader second.headersData (length - boundaryBytes.length)
    rw [headerResult] at reads
    rcases reads with ended | ⟨fills, offset, short, same⟩
    · refine absurd ?_ notBody
      change third = _ at ended
      rw [ended, transitionToNextPhase, inHeader]
    · change third = _ at same
      change headerBytes.length = _ at fills
      refine ⟨?_, by omega⟩
      subst same
      rw [ahead, inHeader]
      intro empty
      have consumed := (List.append_eq_nil_iff.mp (List.append_eq_nil_iff.mp empty).1).1
      exact absurd (List.drop_eq_nil_iff.mp consumed) (Nat.not_le.mpr short)
  · rw [readPhase_of_ne inHeader] at headerResult
    cases headerResult
    have inBoundary : second.phase = .encapsulationBoundary := by
      cases phase : second.phase with
      | encapsulationBoundary => rfl
      | header => exact absurd phase inHeader
      | body => exact absurd phase notBody
      | finalBoundary => exact absurd phase notFinal
    have wasInBoundary : part.phase = .encapsulationBoundary := by
      by_cases was : part.phase = .encapsulationBoundary
      · exact was
      · rw [readPhase_of_ne was] at boundaryResult
        cases boundaryResult
        exact inBoundary
    have reads := readPhase_cases wasInBoundary part.encapsulationBoundaryData length
    rw [boundaryResult] at reads
    rcases reads with ended | ⟨fills, offset, short, same⟩
    · change second = _ at ended
      rw [ended] at inBoundary
      exact absurd (inBoundary.trans wasInBoundary.symm) (transitionToNextPhase_phase_ne part)
    · change second = _ at same
      change boundaryBytes.length = length at fills
      refine ⟨?_, by omega⟩
      subst same
      rw [ahead, inBoundary]
      intro empty
      have rest := (List.append_eq_nil_iff.mp (List.append_eq_nil_iff.mp empty).1).1
      have consumed := (List.append_eq_nil_iff.mp rest).1
      exact absurd (List.drop_eq_nil_iff.mp consumed) (Nat.not_le.mpr short)

theorem readBody_of_unreadable {part : AFHTTPBodyPart} (readable : part.Readable)
    (unreadable : part.Unreadable) (inBody : part.phase = .body) (maxLength : Nat) :
    (part.readBody maxLength).1 = none := by
  rcases part with ⟨headers, boundary, body, size, stream, isFirst, isLast, phase, offset⟩
  cases inBody
  have isOpen : stream.status = .opened := readable
  have fails : stream.read maxLength = (none, { stream with status := .failed }) := by
    rw [NSInputStream.read, isOpen]
    simp only
    rw [unreadable.2]
    exact if_neg unreadable.1
  rw [readBody, if_pos rfl]
  simp only [fails]

/-- The outcome of `read:maxLength:` of a part.  Without a failure a part
that can only fail stays in front of its body. -/
inductive PartRead (part : AFHTTPBodyPart) (length : Nat) :
    Except NSData NSData -> AFHTTPBodyPart -> Prop
  | fails {copied : NSData} {after : AFHTTPBodyPart} (fails : Fails part after copied) :
      PartRead part length (.error copied) after
  | takes {bytes : NSData} {after : AFHTTPBodyPart} (valid : after.Valid)
      (takes : Takes part after bytes) (fits : bytes.length ≤ length)
      (moves : 0 < length -> Moves part after bytes)
      (stays : part.Unreadable -> after.Unreadable ∧ after.pending ≠ [] ∧ length ≤ bytes.length) :
      PartRead part length (.ok bytes) after

/-- Of four phases in a row, the one that a part is in moves it on. -/
theorem moves_of_phases {part second third fourth fifth : AFHTTPBodyPart} {length : Nat}
    {boundaryBytes headerBytes bodyBytes closingBytes : NSData} {after : AFHTTPBodyPart -> Prop}
    (boundaryPhase : Phased part .encapsulationBoundary length Readable (boundaryBytes, second))
    (headerPhase : Phased second .header (length - boundaryBytes.length) Readable
      (headerBytes, third))
    (bodyPhase : Phased third .body (length - boundaryBytes.length - headerBytes.length) Readable
      (bodyBytes, fourth))
    (closingPhase : Phased fourth .finalBoundary
      (length - boundaryBytes.length - headerBytes.length - bodyBytes.length) after
      (closingBytes, fifth)) (positive : 0 < length) :
    Moves part fifth (boundaryBytes ++ (headerBytes ++ (bodyBytes ++ closingBytes))) := by
  have bodyOn := bodyPhase.takes.trans closingPhase.takes
  have headerOn := headerPhase.takes.trans bodyOn
  by_cases inBoundary : part.phase = .encapsulationBoundary
  · exact (boundaryPhase.moves inBoundary positive).append_takes headerOn
  apply boundaryPhase.takes.append_moves
  cases boundaryPhase.skips inBoundary
  by_cases inHeader : part.phase = .header
  · exact (headerPhase.moves inHeader positive).append_takes bodyOn
  apply headerPhase.takes.append_moves
  cases headerPhase.skips inHeader
  by_cases inBody : part.phase = .body
  · exact (bodyPhase.moves inBody positive).append_takes closingPhase.takes
  apply bodyPhase.takes.append_moves
  cases bodyPhase.skips inBody
  have inFinal : part.phase = .finalBoundary := by
    cases phase : part.phase with
    | encapsulationBoundary => exact absurd phase inBoundary
    | header => exact absurd phase inHeader
    | body => exact absurd phase inBody
    | finalBoundary => rfl
  exact closingPhase.moves inFinal positive

/-- A read of a part takes what comes next, and something if it has room. -/
theorem partRead_of_readable {part : AFHTTPBodyPart} (readable : part.Readable) (length : Nat) :
    PartRead part length (part.read length).1 (part.read length).2 := by
  have boundaryPhase := phased_encapsulationBoundary readable length
  have boundaryChunks := readPhase_chunks .encapsulationBoundary part.encapsulationBoundaryData part length
  unfold read
  rcases boundaryResult : part.readPhase .encapsulationBoundary part.encapsulationBoundaryData length
    with ⟨boundaryBytes, second⟩
  rw [boundaryResult] at boundaryPhase boundaryChunks
  have headerPhase := phased_header boundaryPhase.after (length - boundaryBytes.length)
  have headerChunks := readPhase_chunks .header second.headersData second
    (length - boundaryBytes.length)
  simp only at headerPhase ⊢
  rcases headerResult : second.readPhase .header second.headersData (length - boundaryBytes.length)
    with ⟨headerBytes, third⟩
  rw [headerResult] at headerPhase headerChunks
  have earlierTakes := boundaryPhase.takes.trans headerPhase.takes
  have earlierChunks : third.inputStream.chunks = part.inputStream.chunks :=
    headerChunks.trans boundaryChunks
  rcases readBody_cases headerPhase.after (length - boundaryBytes.length - headerBytes.length) with
    ⟨after, result, fails⟩ | ⟨bodyBytes, fourth, result, bodyPhase⟩
  · simp only at result
    simp only [result]
    exact PartRead.fails (fails.of_takes earlierTakes earlierChunks)
  · simp only at result
    simp only [result]
    have closingPhase := phased_finalBoundary bodyPhase.after
      (length - boundaryBytes.length - headerBytes.length - bodyBytes.length)
    revert closingPhase
    change Phased fourth _ _ _ _ -> _
    rcases fourth.readPhase .finalBoundary fourth.closingBoundaryData
      (length - boundaryBytes.length - headerBytes.length - bodyBytes.length) with
      ⟨closingBytes, fifth⟩
    intro closingPhase
    have boundaryFits := boundaryPhase.length_le
    have headerFits := headerPhase.length_le
    have bodyFits := bodyPhase.length_le
    have closingFits := closingPhase.length_le
    have whole := earlierTakes.trans (bodyPhase.takes.trans closingPhase.takes)
    simp only [List.append_assoc] at whole ⊢
    refine PartRead.takes closingPhase.after whole ?_
      (fun positive => moves_of_phases boundaryPhase headerPhase bodyPhase closingPhase positive) ?_
    · simp only [List.length_append] at *
      omega
    · intro unreadable
      have failed : third.inputStream.failure ≠ none := by
        rw [earlierTakes.failure]
        exact unreadable.1
      have stuck : third.Unreadable := ⟨failed, earlierChunks.trans unreadable.2⟩
      have notBody : third.phase ≠ .body := by
        intro inBody
        have noBytes := readBody_of_unreadable headerPhase.after stuck inBody
          (length - boundaryBytes.length - headerBytes.length)
        rw [result] at noBytes
        cases noBytes
      have notFinal : third.phase ≠ .finalBoundary := by
        intro inFinal
        have closed := headerPhase.after
        rw [Readable, inFinal] at closed
        exact failed closed.2.2
      have full := full_of_phases boundaryResult headerResult headerPhase.after notBody notFinal
      cases bodyPhase.skips notBody
      cases closingPhase.skips notFinal
      refine ⟨stuck, full.1, ?_⟩
      rw [List.append_nil, List.append_nil]
      exact full.2

/-- A part that can only fail and has something left was as it is before a
read that has left it so, and the read has filled its room. -/
theorem PartRead.unreadable_of_pending {part after : AFHTTPBodyPart} {length : Nat} {bytes : NSData}
    (partRead : PartRead part length (.ok bytes) after) (unreadable : after.Unreadable)
    (more : after.pending ≠ []) : part.Unreadable ∧ length ≤ bytes.length := by
  cases partRead with
  | takes valid takes fits moves stays =>
      have available : after.hasBytesAvailable = true := by
        cases isAvailable : after.hasBytesAvailable with
        | true => rfl
        | false => exact absurd (pending_of_not_available isAvailable) more
      have readable := valid.readable available
      have notOpen : after.inputStream.status = .notOpen := by
        rw [readable.pending] at more
        unfold Readable at readable
        cases phase : after.phase with
        | encapsulationBoundary =>
            rw [phase] at readable
            exact readable.1
        | header =>
            rw [phase] at readable
            exact readable.1
        | body =>
            refine absurd ?_ more
            rw [ahead, phase]
            change after.inputStream.chunks.flatten ++ after.tail = []
            rw [unreadable.2, tail_of_failure unreadable.1]
            rfl
        | finalBoundary =>
            rw [phase] at readable
            exact absurd readable.2.2 unreadable.1
      have failed := unreadable.1
      rw [takes.failure] at failed
      have was : part.Unreadable := ⟨failed, (takes.unopened notOpen).2.symm.trans unreadable.2⟩
      exact ⟨was, (stays was).2.2⟩

end AFHTTPBodyPart

end AFNetworking
end Network
end HowBigDemo
