import Mathlib.Data.Bool.AllAny
import HowBigDemo.Library.Multipart
import HowBigDemo.Network.RequestSerialization

namespace HowBigDemo
namespace Network
namespace AFNetworking

open Library

/-!
# Multipart form requests

`multipartFormRequestWithMethod:` makes a part of every parameter, lets its
caller append more and finalizes the request: the body stream, the type with
the boundary and the length that the parts announce.  When the server wants
the body again, the loading system asks for a copy of the stream.

The theorems say that the announced length is the number of bytes delivered,
that the copy sends the same bytes however much of the first stream has been
read, though in packets of the size that a new stream has, and that a receiver finds in these bytes the parameters and nothing
else.
-/

/-! ## Building a request -/

/-- The last digits of a number as `%X` prints them. -/
def hexDigits : Nat -> Nat -> NSString
  | 0, _ => []
  | digits + 1, value => hexDigits digits (value / 16) ++ [hexDigit (value % 16)]

/-- `AFCreateMultipartFormBoundary`, given the two random numbers. -/
def createMultipartFormBoundary (random : UInt32 × UInt32) : NSString :=
  text "Boundary+" ++ hexDigits 8 random.1.toNat ++ hexDigits 8 random.2.toNat

structure AFStreamingMultipartFormData where
  request : NSMutableURLRequest
  boundary : NSString
  bodyStream : AFMultipartBodyStream
  deriving DecidableEq

def quotationMark : CodeUnit := 34

/-- A stream that nobody reads: the parts that send data or a file make their
own. -/
def noStream : NSInputStream := ⟨.notOpen, [], false, none⟩

/-- What the file system knows of the URL of a file. -/
structure FileURL where
  isFileURL : Bool
  isReachable : Except NSError Unit
  fileSize : Except NSError Nat
  content : Option NSData

namespace AFStreamingMultipartFormData

/-- `initWithURLRequest:stringEncoding:`. -/
def make (request : NSMutableURLRequest) (random : UInt32 × UInt32) :
    AFStreamingMultipartFormData :=
  ⟨request, createMultipartFormBoundary random, AFMultipartBodyStream.make []⟩

def appendHTTPBodyPart (formData : AFStreamingMultipartFormData) (part : AFHTTPBodyPart) :
    AFStreamingMultipartFormData :=
  { formData with
    bodyStream :=
      { formData.bodyStream with httpBodyParts := formData.bodyStream.httpBodyParts ++ [part] } }

/-- The value of the disposition of a part with a name. -/
def disposition (name : NSString) : NSString :=
  text "form-data; name=\"" ++ name ++ [quotationMark]

/-- The headers of a part with a file name and a type. -/
def fileHeaders (name fileName mimeType : NSString) : List (NSString × NSString) :=
  [(text "Content-Disposition",
      disposition name ++ text "; filename=\"" ++ fileName ++ [quotationMark]),
    (text "Content-Type", mimeType)]

section Appending

variable (endsEagerly : Bool) (formData : AFStreamingMultipartFormData)

def appendPartWithHeaders (headers : List (NSString × NSString)) (body : NSData) :
    AFStreamingMultipartFormData :=
  formData.appendHTTPBodyPart
    (AFHTTPBodyPart.make headers formData.boundary (.data body) body.length endsEagerly noStream)

def appendPartWithFormData (data : NSData) (name : NSString) : AFStreamingMultipartFormData :=
  appendPartWithHeaders endsEagerly formData [(text "Content-Disposition", disposition name)] data

def appendPartWithFileData (data : NSData) (name fileName mimeType : NSString) :
    AFStreamingMultipartFormData :=
  appendPartWithHeaders endsEagerly formData (fileHeaders name fileName mimeType) data

/-- `appendPartWithInputStream:name:fileName:length:mimeType:`, where the
length is a signed number of 64 bits. -/
def appendPartWithInputStream (inputStream : NSInputStream) (name fileName : NSString)
    (length : Int64) (mimeType : NSString) : AFStreamingMultipartFormData :=
  formData.appendHTTPBodyPart
    (AFHTTPBodyPart.make (fileHeaders name fileName mimeType) formData.boundary .inputStream
      length.toUInt64.toNat endsEagerly inputStream)

/-- `AFURLRequestSerializationErrorDomain` with `NSURLErrorBadURL`. -/
def badURL : NSError :=
  .plain "com.alamofire.error.serialization.request" (-1000)

/-- `appendPartWithFileURL:name:fileName:mimeType:error:`. -/
def appendPartWithFileURL (fileURL : FileURL) (name fileName mimeType : NSString) :
    Except NSError AFStreamingMultipartFormData :=
  if fileURL.isFileURL = false then .error badURL
  else
    match fileURL.isReachable with
    | .error _ => .error badURL
    | .ok _ =>
      match fileURL.fileSize with
      | .error error => .error error
      | .ok fileSize =>
        .ok (formData.appendHTTPBodyPart
          (AFHTTPBodyPart.make (fileHeaders name fileName mimeType) formData.boundary
            (.url fileURL.content) fileSize endsEagerly noStream))

end Appending

/-- `requestByFinalizingMultipartFormData`. -/
def requestByFinalizingMultipartFormData (formData : AFStreamingMultipartFormData) :
    NSMutableURLRequest :=
  if formData.bodyStream.isEmpty then formData.request
  else
    let bodyStream :=
      { formData.bodyStream with
        httpBodyParts := setInitialAndFinalBoundaries formData.bodyStream.httpBodyParts }
    let request := { formData.request with httpBodyStream := some bodyStream }
    let request := request.setValueForHTTPHeaderField
      (text "multipart/form-data; boundary=" ++ formData.boundary) (text "Content-Type")
    request.setValueForHTTPHeaderField (text (toString bodyStream.contentLength))
      (text "Content-Length")

end AFStreamingMultipartFormData

section Request

variable (endsEagerly : Bool) (descriptions : Descriptions) (boundaries : NSString -> Nat -> Bool)

/-- The data that is sent for a parameter.  A text that cannot be encoded has
none. -/
def dataOfParameter : Parameter -> Option NSData
  | .data bytes _ => some bytes
  | .null => some []
  | value => dataUsingEncoding (value.description descriptions)

/-- The part of a pair, unless its value has no data. -/
def appendPair (formData : AFStreamingMultipartFormData) (pair : AFQueryStringPair) :
    AFStreamingMultipartFormData :=
  match dataOfParameter descriptions pair.value with
  | none => formData
  | some data =>
    formData.appendPartWithFormData endsEagerly data (pair.field.getD (text "(null)"))

/-- The parameters as parts, in the order of the query string. -/
def appendParameters (formData : AFStreamingMultipartFormData)
    (parameters : List (NSString × Parameter)) : AFStreamingMultipartFormData :=
  (pairsFromDictionary descriptions parameters).foldl (appendPair endsEagerly descriptions) formData

/-- `multipartFormRequestWithMethod:URLString:parameters:
constructingBodyWithBlock:error:`, where the block appends parts. -/
def multipartFormRequestWithMethod (serializerHeaders : List (NSString × NSString))
    (random : UInt32 × UInt32) (method url : NSString) (parameters : List (NSString × Parameter))
    (block : AFStreamingMultipartFormData -> AFStreamingMultipartFormData) :
    Option NSMutableURLRequest :=
  (requestWithMethod descriptions boundaries serializerHeaders method url none).map fun request =>
    (block (appendParameters endsEagerly descriptions
      (AFStreamingMultipartFormData.make request random) parameters)).requestByFinalizingMultipartFormData

end Request

/-! ## Encoded texts -/

/-- A text that has data. -/
def Encodable (string : NSString) : Prop :=
  dataUsingEncoding string = some (encodedData string)

theorem encodable_iff (string : NSString) :
    Encodable string ↔ Exists fun scalars => utf16Decode string = some scalars := by
  unfold Encodable encodedData dataUsingEncoding utf8Bytes
  cases utf16Decode string with
  | none => exact ⟨nofun, fun found => nomatch found⟩
  | some scalars => exact ⟨fun _ => ⟨scalars, rfl⟩, fun _ => rfl⟩

/-- Encodable texts are encoded one after the other. -/
theorem Encodable.append {first second : NSString} (firstEncodes : Encodable first)
    (secondEncodes : Encodable second) :
    Encodable (first ++ second) ∧
      encodedData (first ++ second) = encodedData first ++ encodedData second := by
  rcases (encodable_iff first).mp firstEncodes with ⟨firstScalars, firstDecodes⟩
  rcases (encodable_iff second).mp secondEncodes with ⟨secondScalars, secondDecodes⟩
  have firstParts := (utf16Decode_eq_some_iff first firstScalars).mp firstDecodes
  have secondParts := (utf16Decode_eq_some_iff second secondScalars).mp secondDecodes
  have bothDecode : utf16Decode (first ++ second) = some (firstScalars ++ secondScalars) := by
    rw [utf16Decode_eq_some_iff, List.flatMap_append, ← firstParts.2, ← secondParts.2]
    refine ⟨?_, rfl⟩
    intro scalar listed
    rcases List.mem_append.mp listed with inFirst | inSecond
    · exact firstParts.1 scalar inFirst
    · exact secondParts.1 scalar inSecond
  refine ⟨(encodable_iff _).mpr ⟨_, bothDecode⟩, ?_⟩
  unfold encodedData dataUsingEncoding utf8Bytes
  rw [bothDecode, firstDecodes, secondDecodes]
  change ((firstScalars ++ secondScalars).flatMap utf8).map UInt8.ofNat = _
  rw [List.flatMap_append, List.map_append]
  rfl

/-- The bytes of ASCII text. -/
def asciiBytes (string : NSString) : NSData :=
  string.map fun unit => UInt8.ofNat unit.toNat

/-- ASCII text has one byte for each unit. -/
theorem encodedData_of_ascii {string : NSString} (ascii : forall unit, unit ∈ string -> unit.toNat < 128) :
    Encodable string ∧ encodedData string = asciiBytes string := by
  have decodes : utf16Decode string = some (string.map UInt16.toNat) := by
    rw [utf16Decode_eq_some_iff]
    constructor
    · intro scalar listed
      rcases List.mem_map.mp listed with ⟨unit, member, rfl⟩
      have bound := ascii unit member
      exact Or.inl (by omega)
    · induction string with
      | nil => rfl
      | cons unit rest inductionHypothesis =>
          have parts := List.forall_mem_cons.mp ascii
          rw [List.map_cons, List.flatMap_cons, ← inductionHypothesis parts.2, utf16,
            if_pos (by omega), UInt16.ofNat_toNat]
          rfl
  refine ⟨(encodable_iff _).mpr ⟨_, decodes⟩, ?_⟩
  unfold encodedData dataUsingEncoding utf8Bytes
  rw [decodes]
  change ((string.map UInt16.toNat).flatMap utf8).map UInt8.ofNat = asciiBytes string
  clear decodes
  induction string with
  | nil => rfl
  | cons unit rest inductionHypothesis =>
      have parts := List.forall_mem_cons.mp ascii
      rw [List.map_cons, List.flatMap_cons, List.map_append, inductionHypothesis parts.2, utf8,
        if_pos parts.1]
      rfl

theorem hexDigits_ascii (digits value : Nat) :
    forall unit, unit ∈ hexDigits digits value -> unit.toNat < 128 ∧ unit ≠ 13 := by
  have digit : forall value, value < 16 -> (hexDigit value).toNat < 128 ∧ hexDigit value ≠ 13 := by
    decide
  induction digits generalizing value with
  | zero => exact fun _ listed => absurd listed List.not_mem_nil
  | succ digits inductionHypothesis =>
      intro unit listed
      rcases List.mem_append.mp listed with earlier | last
      · exact inductionHypothesis (value / 16) unit earlier
      · rw [List.mem_singleton.mp last]
        exact digit (value % 16) (Nat.mod_lt value (by decide))

theorem createMultipartFormBoundary_ascii (random : UInt32 × UInt32) :
    forall unit, unit ∈ createMultipartFormBoundary random -> unit.toNat < 128 ∧ unit ≠ 13 := by
  have literal : forall unit, unit ∈ text "Boundary+" -> unit.toNat < 128 ∧ unit ≠ 13 :=
    List.all_iff_forall_prop.mp rfl
  intro unit listed
  rcases List.mem_append.mp listed with earlier | inSecond
  · rcases List.mem_append.mp earlier with inLiteral | inFirst
    · exact literal unit inLiteral
    · exact hexDigits_ascii 8 _ unit inFirst
  · exact hexDigits_ascii 8 _ unit inSecond

/-! ## New body streams -/

/-- A part as it was appended, with as many bytes as it announces. -/
structure Fresh (part : AFHTTPBodyPart) : Prop where
  phase : part.phase = .encapsulationBoundary
  offset : part.phaseReadOffset = 0
  status : part.inputStream.status = .notOpen
  sound : part.inputStream.failure = none
  length : part.bodyContentLength = part.inputStream.chunks.flatten.length

/-- The two properties that `setInitialAndFinalBoundaries` sets. -/
def withFlags (isFirst isLast : Bool) (part : AFHTTPBodyPart) : AFHTTPBodyPart :=
  { part with hasInitialBoundary := isFirst, hasFinalBoundary := isLast }

/-- Parts with their boundaries, given the index of the first and the number
of all. -/
def flagged (count : Nat) : Nat -> List AFHTTPBodyPart -> List AFHTTPBodyPart
  | _, [] => []
  | index, part :: rest =>
      withFlags (decide (index = 0)) (decide (index + 1 = count)) part ::
        flagged count (index + 1) rest

theorem getElem?_flagged (count start : Nat) (parts : List AFHTTPBodyPart) (index : Nat) :
    (flagged count start parts)[index]? =
      parts[index]?.map
        (withFlags (decide (start + index = 0)) (decide (start + index + 1 = count))) := by
  induction parts generalizing start index with
  | nil => rfl
  | cons part rest inductionHypothesis =>
      cases index with
      | zero => rfl
      | succ index =>
          have later := inductionHypothesis (start + 1) index
          rw [show start + 1 + index = start + (index + 1) by omega] at later
          exact later

theorem setInitialAndFinalBoundaries_eq_flagged (parts : List AFHTTPBodyPart) :
    setInitialAndFinalBoundaries parts = flagged parts.length 0 parts := by
  apply List.ext_getElem?
  intro index
  rw [getElem?_setInitialAndFinalBoundaries, getElem?_flagged, Nat.zero_add]
  rfl

/-- The whole of a part with the given boundaries. -/
def whole (isFirst isLast : Bool) (part : AFHTTPBodyPart) : NSData :=
  encodedData
      (if isFirst then initialBoundary part.boundary else encapsulationBoundary part.boundary) ++
    part.headersData ++ part.inputStream.chunks.flatten ++
      (if isLast then encodedData (finalBoundary part.boundary) else [])

theorem Fresh.pending_withFlags {part : AFHTTPBodyPart} (fresh : Fresh part) (isFirst isLast : Bool) :
    (withFlags isFirst isLast part).pending = whole isFirst isLast part := by
  rcases part with ⟨headers, boundary, body, size, stream, first, last, phase, offset⟩
  rcases fresh with ⟨samePhase, sameOffset, status, sound, length⟩
  cases samePhase
  cases sameOffset
  have available : (withFlags isFirst isLast ⟨headers, boundary, body, size, stream, first, last,
      .encapsulationBoundary, 0⟩).hasBytesAvailable = true := by
    unfold AFHTTPBodyPart.hasBytesAvailable withFlags
    rw [if_neg nofun]
    simp only at status
    simp only [status]
  have tail : (withFlags isFirst isLast ⟨headers, boundary, body, size, stream, first, last,
      .encapsulationBoundary, 0⟩).tail = if isLast then encodedData (finalBoundary boundary) else [] :=
    if_pos sound
  unfold AFHTTPBodyPart.pending
  rw [if_pos available]
  unfold AFHTTPBodyPart.ahead
  change List.drop 0 _ ++ _ ++ _ ++ AFHTTPBodyPart.tail _ = _
  rw [tail]
  rfl

theorem flatMap_range'_pendingAt (parts : List AFHTTPBodyPart) :
    (List.range' 0 parts.length).flatMap (pendingAt parts) = parts.flatMap AFHTTPBodyPart.pending := by
  have shifted : forall (before rest : List AFHTTPBodyPart), before ++ rest = parts ->
      (List.range' before.length rest.length).flatMap (pendingAt parts) =
        rest.flatMap AFHTTPBodyPart.pending := by
    intro before rest same
    induction rest generalizing before with
    | nil => rfl
    | cons part rest inductionHypothesis =>
        have later := inductionHypothesis (before ++ [part]) (by rw [← same, List.append_assoc]; rfl)
        have here : pendingAt parts before.length = part.pending := by
          unfold pendingAt
          rw [← same, List.getElem?_append_right (Nat.le_refl _), Nat.sub_self]
          rfl
        rw [List.length_append] at later
        rw [List.length_cons, List.range'_succ, List.flatMap_cons, List.flatMap_cons, here]
        exact congrArg _ later
  exact shifted [] parts rfl

/-- The stream of a finalized request, before anything is read. -/
def finalized (parts : List AFHTTPBodyPart) : AFMultipartBodyStream :=
  AFMultipartBodyStream.make (setInitialAndFinalBoundaries parts)

theorem pending_flagged {parts : List AFHTTPBodyPart}
    (fresh : forall part, part ∈ parts -> Fresh part) (count start : Nat) :
    (flagged count start parts).flatMap AFHTTPBodyPart.pending =
      (parts.zipIdx start).flatMap fun indexed =>
        whole (decide (indexed.2 = 0)) (decide (indexed.2 + 1 = count)) indexed.1 := by
  induction parts generalizing start with
  | nil => rfl
  | cons part rest inductionHypothesis =>
      have freshParts := List.forall_mem_cons.mp fresh
      rw [flagged, List.flatMap_cons, List.zipIdx_cons, List.flatMap_cons,
        freshParts.1.pending_withFlags, inductionHypothesis freshParts.2]

/-- The bytes of a finalized stream are those of its parts. -/
theorem pending_finalized {parts : List AFHTTPBodyPart}
    (fresh : forall part, part ∈ parts -> Fresh part) :
    (finalized parts).pending =
      (parts.zipIdx 0).flatMap fun indexed =>
        whole (decide (indexed.2 = 0)) (decide (indexed.2 + 1 = parts.length)) indexed.1 := by
  have order : (finalized parts).order =
      List.range' 0 (setInitialAndFinalBoundaries parts).length := by
    change (List.range' 0 ((setInitialAndFinalBoundaries parts).length - 0)).filter _ = _
    exact List.filter_eq_self.mpr fun _ _ => rfl
  rw [AFMultipartBodyStream.pending, order]
  change (List.range' 0 (setInitialAndFinalBoundaries parts).length).flatMap
    (pendingAt (setInitialAndFinalBoundaries parts)) = _
  rw [flatMap_range'_pendingAt, setInitialAndFinalBoundaries_eq_flagged, pending_flagged fresh]

/-- What a finalized stream announces is what it has to send. -/
theorem contentLength_finalized {parts : List AFHTTPBodyPart}
    (fresh : forall part, part ∈ parts -> Fresh part) :
    (finalized parts).contentLength = (finalized parts).pending.length := by
  have lengths : forall count start, ((flagged count start parts).map AFHTTPBodyPart.contentLength).sum =
      ((flagged count start parts).flatMap AFHTTPBodyPart.pending).length := by
    intro count start
    induction parts generalizing start with
    | nil => rfl
    | cons part rest inductionHypothesis =>
        have freshParts := List.forall_mem_cons.mp fresh
        have here : (withFlags (decide (start = 0)) (decide (start + 1 = count)) part).contentLength =
            (whole (decide (start = 0)) (decide (start + 1 = count)) part).length := by
          unfold whole
          rw [List.length_append, List.length_append, List.length_append, ← freshParts.1.length]
          rfl
        rw [flagged, List.map_cons, List.sum_cons, List.flatMap_cons, List.length_append,
          inductionHypothesis freshParts.2, freshParts.1.pending_withFlags, here]
  have pending := pending_finalized fresh
  rw [← pending_flagged fresh] at pending
  rw [pending, ← lengths, AFMultipartBodyStream.contentLength]
  change ((setInitialAndFinalBoundaries parts).map _).sum = _
  rw [setInitialAndFinalBoundaries_eq_flagged]

/-- The boundary of a part can be written. -/
def Bounded (part : AFHTTPBodyPart) : Prop :=
  forall unit, unit ∈ part.boundary -> unit.toNat < 128

theorem ascii_append {first second : NSString} (firstAscii : forall unit, unit ∈ first -> unit.toNat < 128)
    (secondAscii : forall unit, unit ∈ second -> unit.toNat < 128) :
    forall unit, unit ∈ first ++ second -> unit.toNat < 128 := by
  intro unit listed
  rcases List.mem_append.mp listed with inFirst | inSecond
  · exact firstAscii unit inFirst
  · exact secondAscii unit inSecond

theorem crlf_ascii : forall unit, unit ∈ crlf -> unit.toNat < 128 :=
  List.all_iff_forall_prop.mp rfl

theorem dashes_ascii : forall unit, unit ∈ text "--" -> unit.toNat < 128 :=
  List.all_iff_forall_prop.mp rfl

theorem encodedData_initialBoundary {boundary : NSString}
    (ascii : forall unit, unit ∈ boundary -> unit.toNat < 128) :
    encodedData (initialBoundary boundary) =
      Multipart.dashed (asciiBytes boundary) ++ lineEnd := by
  have literal := ascii_append (ascii_append dashes_ascii ascii) crlf_ascii
  rw [initialBoundary, (encodedData_of_ascii literal).2, asciiBytes, List.map_append, List.map_append]
  rfl

theorem encodedData_encapsulationBoundary {boundary : NSString}
    (ascii : forall unit, unit ∈ boundary -> unit.toNat < 128) :
    encodedData (encapsulationBoundary boundary) =
      Multipart.delimiter (asciiBytes boundary) ++ lineEnd := by
  have literal := ascii_append (ascii_append (ascii_append crlf_ascii dashes_ascii) ascii) crlf_ascii
  rw [encapsulationBoundary, (encodedData_of_ascii literal).2, asciiBytes, List.map_append,
    List.map_append]
  rfl

theorem encodedData_finalBoundary {boundary : NSString}
    (ascii : forall unit, unit ∈ boundary -> unit.toNat < 128) :
    encodedData (finalBoundary boundary) =
      Multipart.delimiter (asciiBytes boundary) ++ (45 :: 45 :: lineEnd) := by
  have literal := ascii_append (ascii_append (ascii_append (ascii_append crlf_ascii dashes_ascii) ascii)
    dashes_ascii) crlf_ascii
  rw [finalBoundary, (encodedData_of_ascii literal).2, asciiBytes, List.map_append, List.map_append,
    List.map_append, List.append_assoc]
  rfl

/-- A finalized stream of new parts satisfies the invariant of the stream. -/
theorem invariant_finalized {parts : List AFHTTPBodyPart}
    (fresh : forall part, part ∈ parts -> Fresh part)
    (bounded : forall part, part ∈ parts -> Bounded part) :
    (finalized parts).Invariant ∧ (finalized parts).Sound := by
  have origin : forall part, part ∈ setInitialAndFinalBoundaries parts ->
      Exists fun before => before ∈ parts ∧ Exists fun isFirst => Exists fun isLast =>
        part = withFlags isFirst isLast before := by
    intro part listed
    rcases List.getElem?_of_mem listed with ⟨index, found⟩
    rw [getElem?_setInitialAndFinalBoundaries] at found
    rcases Option.map_eq_some_iff.mp found with ⟨before, there, rfl⟩
    exact ⟨before, List.mem_of_getElem? there, _, _, rfl⟩
  refine ⟨⟨?_, flagsSet_setInitialAndFinalBoundaries parts,
    fun _ early => absurd early (Nat.not_lt_zero _), Or.inl ⟨rfl, rfl, rfl⟩⟩, ?_⟩
  · intro part listed
    rcases origin part listed with ⟨before, member, isFirst, isLast, rfl⟩
    have new := fresh before member
    have ascii := bounded before member
    rcases before with ⟨headers, boundary, body, size, stream, first, last, phase, offset⟩
    cases new.phase
    cases new.offset
    refine Or.inl ⟨new.status, ?_⟩
    change 0 < (encodedData (if isFirst then initialBoundary boundary
      else encapsulationBoundary boundary)).length
    cases isFirst with
    | true =>
        rw [if_pos rfl, encodedData_initialBoundary ascii]
        exact Nat.succ_pos _
    | false =>
        rw [if_neg Bool.false_ne_true, encodedData_encapsulationBoundary ascii]
        exact Nat.succ_pos _
  · intro part listed
    rcases origin part listed with ⟨before, member, isFirst, isLast, rfl⟩
    exact (fresh before member).sound

/-- A finalized stream with the packet size that
`throttleBandwidthWithPacketSize:delay:` gives it. -/
def throttled (packet : Nat) (parts : List AFHTTPBodyPart) : AFMultipartBodyStream :=
  { finalized parts with numberOfBytesInPacket := packet }

/-- Whatever the calls and the packet size, a finalized stream never delivers
more than its request announces, and reads that ask for enough deliver all of
it. -/
theorem delivers_announced_length {parts : List AFHTTPBodyPart}
    (fresh : forall part, part ∈ parts -> Fresh part)
    (bounded : forall part, part ∈ parts -> Bounded part) (packet : Nat) :
    (forall calls, (AFMultipartBodyStream.system.trace (throttled packet parts) calls).flatten.length ≤
        (throttled packet parts).contentLength) ∧
      forall sizes, (throttled packet parts).contentLength ≤ ByteSource.demand packet sizes ->
        (AFMultipartBodyStream.system.trace (throttled packet parts)
          (.open :: sizes.map StreamCall.read)).flatten.length =
            (throttled packet parts).contentLength := by
  have valid := invariant_finalized fresh bounded
  have started : (throttled packet parts).Invariant :=
    ⟨valid.1.valid, valid.1.flags, valid.1.passed, valid.1.status⟩
  have observed := fun calls =>
    (AFMultipartBodyStream.refines_byteSource packet).trace_eq ⟨started, valid.2, rfl⟩ calls
  have announced : (throttled packet parts).contentLength = (throttled packet parts).pending.length :=
    contentLength_finalized fresh
  rw [announced]
  constructor
  · intro calls
    rw [observed]
    have whole := ByteSource.flatten_trace_append_run packet (throttled packet parts).toSource calls
    have lengths := congrArg List.length whole
    rw [List.length_append] at lengths
    exact Nat.le.intro lengths
  · intro sizes enough
    rw [observed, EventSystem.trace_cons]
    exact congrArg List.length (ByteSource.flatten_trace_reads packet rfl enough)

section MixedForm

open AFStreamingMultipartFormData

/-- A form with data, a file and a stream of the caller, in three chunks. -/
def mixedForm : Except NSError AFStreamingMultipartFormData :=
  appendPartWithFileURL true
    (appendPartWithInputStream true
      (appendPartWithFileData true (make ⟨text "http://localhost/", text "POST", [], none, none⟩ (1, 2))
        [8, 9] (text "data") (text "d") (text "image/png"))
      ⟨.notOpen, [[4], [], [5, 6, 7]], true, none⟩ (text "stream") (text "s") 4 (text "video/mp4"))
    ⟨true, .ok (), .ok 3, some [1, 2, 3]⟩ (text "file") (text "f") (text "text/plain")

def mixedParts : List AFHTTPBodyPart :=
  match mixedForm with
  | .error _ => []
  | .ok formData => formData.bodyStream.httpBodyParts

end MixedForm

theorem mixedParts_delivered :
    (forall calls, (AFMultipartBodyStream.system.trace (throttled 16 mixedParts) calls).flatten.length ≤
        (throttled 16 mixedParts).contentLength) ∧
      forall sizes, (throttled 16 mixedParts).contentLength ≤ ByteSource.demand 16 sizes ->
        (AFMultipartBodyStream.system.trace (throttled 16 mixedParts)
          (.open :: sizes.map StreamCall.read)).flatten.length =
            (throttled 16 mixedParts).contentLength := by
  refine delivers_announced_length ?_ ?_ 16
  · intro part listed
    change part ∈ [_, _, _] at listed
    simp only [List.mem_cons, List.not_mem_nil, or_false] at listed
    rcases listed with rfl | rfl | rfl <;> exact ⟨rfl, rfl, rfl, rfl, rfl⟩
  · intro part listed unit inBoundary
    change part ∈ [_, _, _] at listed
    simp only [List.mem_cons, List.not_mem_nil, or_false] at listed
    rcases listed with rfl | rfl | rfl <;>
      exact (createMultipartFormBoundary_ascii (1, 2) unit inBoundary).1

/-! ## Copies of a stream -/

/-- What a copy of a part is made from. -/
structure Blueprint where
  headers : List (NSString × NSString)
  boundary : NSString
  body : Body
  bodyContentLength : Nat
  endsEagerly : Bool

def blueprint (part : AFHTTPBodyPart) : Blueprint :=
  ⟨part.headers, part.boundary, part.body, part.bodyContentLength, part.inputStream.endsEagerly⟩

/-- The part that a blueprint describes. -/
def Blueprint.build (source : Blueprint) : AFHTTPBodyPart :=
  AFHTTPBodyPart.make source.headers source.boundary source.body source.bodyContentLength
    source.endsEagerly noStream

theorem blueprint_transitionToNextPhase (part : AFHTTPBodyPart) :
    blueprint part.transitionToNextPhase = blueprint part := by
  unfold AFHTTPBodyPart.transitionToNextPhase
  rcases part with ⟨_, _, _, _, _, _, _, phase, _⟩
  cases phase <;> rfl

theorem blueprint_readPhase (phase : ReadPhase) (data : NSData) (part : AFHTTPBodyPart)
    (maxLength : Nat) : blueprint (part.readPhase phase data maxLength).2 = blueprint part := by
  unfold AFHTTPBodyPart.readPhase AFHTTPBodyPart.readData
  split
  · simp only
    split
    · exact blueprint_transitionToNextPhase _
    · rfl
  · rfl

theorem endsEagerly_read (stream : NSInputStream) (maxLength : Nat) :
    (stream.read maxLength).2.endsEagerly = stream.endsEagerly := by
  unfold NSInputStream.read
  split
  · split
    · split <;> rfl
    · rfl
  · rfl
  · rfl

theorem blueprint_readBody (part : AFHTTPBodyPart) (maxLength : Nat) :
    blueprint (part.readBody maxLength).2 = blueprint part := by
  have eager := endsEagerly_read part.inputStream maxLength
  unfold AFHTTPBodyPart.readBody
  split
  · revert eager
    rcases part.inputStream.read maxLength with ⟨answer, stream⟩
    intro eager
    have kept : blueprint { part with inputStream := stream } = blueprint part :=
      congrArg (Blueprint.mk part.headers part.boundary part.body part.bodyContentLength) eager
    cases answer with
    | none => exact kept
    | some bytes =>
        simp only
        split <;> first | exact (blueprint_transitionToNextPhase _).trans kept | exact kept
  · rfl

theorem blueprint_read (part : AFHTTPBodyPart) (length : Nat) :
    blueprint (part.read length).2 = blueprint part := by
  have boundaryPhase :=
    blueprint_readPhase .encapsulationBoundary part.encapsulationBoundaryData part length
  unfold AFHTTPBodyPart.read
  revert boundaryPhase
  rcases part.readPhase .encapsulationBoundary part.encapsulationBoundaryData length with
    ⟨boundaryBytes, second⟩
  intro boundaryPhase
  have headerPhase :=
    blueprint_readPhase .header second.headersData second (length - boundaryBytes.length)
  revert headerPhase
  simp only
  rcases second.readPhase .header second.headersData (length - boundaryBytes.length) with
    ⟨headerBytes, third⟩
  intro headerPhase
  have bodyPhase := blueprint_readBody third (length - boundaryBytes.length - headerBytes.length)
  revert bodyPhase
  rcases third.readBody (length - boundaryBytes.length - headerBytes.length) with ⟨answer, fourth⟩
  intro bodyPhase
  cases answer with
  | none => exact bodyPhase.trans (headerPhase.trans boundaryPhase)
  | some bodyBytes =>
      have closingPhase := blueprint_readPhase .finalBoundary fourth.closingBoundaryData fourth
        (length - boundaryBytes.length - headerBytes.length - bodyBytes.length)
      exact closingPhase.trans (bodyPhase.trans (headerPhase.trans boundaryPhase))

theorem map_set_of_same {Item Image : Type} {image : Item -> Image} {items : List Item} {index : Nat}
    {old new : Item} (found : items[index]? = some old) (same : image new = image old) :
    (items.set index new).map image = items.map image := by
  induction items generalizing index with
  | nil => rfl
  | cons item rest inductionHypothesis =>
      cases index with
      | zero =>
          cases found
          rw [List.set_cons_zero, List.map_cons, List.map_cons, same]
      | succ index =>
          rw [List.set_cons_succ, List.map_cons, List.map_cons, inductionHypothesis found]

/-- Reading changes none of what a copy is made from. -/
theorem blueprints_readRounds (stream : AFMultipartBodyStream) (limit rounds : Nat) (total : NSData) :
    (stream.readRounds limit rounds total).2.httpBodyParts.map blueprint =
      stream.httpBodyParts.map blueprint := by
  have advanced : forall stream : AFMultipartBodyStream,
      stream.advance.httpBodyParts = stream.httpBodyParts := by
    intro stream
    rcases stream.advance_cases with ⟨index, _, _, result⟩ | ⟨_, result⟩ <;> rw [result]
  induction rounds generalizing stream total with
  | zero => rfl
  | succ rounds inductionHypothesis =>
      unfold AFMultipartBodyStream.readRounds
      split
      · cases readable : stream.readablePart with
        | none =>
            simp only
            split
            · rw [advanced]
            · rw [inductionHypothesis, advanced]
        | some current =>
            rcases current with ⟨index, part⟩
            have found := ((stream.readablePart_eq_some_iff index part).mp readable).2.1
            have kept := blueprint_read part (limit - total.length)
            simp only
            revert kept
            rcases part.read (limit - total.length) with ⟨answer, after⟩
            intro kept
            have setKept := map_set_of_same found kept
            cases answer with
            | error copied => exact setKept
            | ok bytes => exact (inductionHypothesis _ _).trans setKept
      · rfl

theorem blueprints_flagged (count start : Nat) (parts : List AFHTTPBodyPart) :
    (flagged count start parts).map blueprint = parts.map blueprint := by
  induction parts generalizing start with
  | nil => rfl
  | cons part rest inductionHypothesis =>
      rw [flagged, List.map_cons, List.map_cons, inductionHypothesis]
      rfl

theorem blueprints_setInitialAndFinalBoundaries (parts : List AFHTTPBodyPart) :
    (setInitialAndFinalBoundaries parts).map blueprint = parts.map blueprint := by
  rw [setInitialAndFinalBoundaries_eq_flagged, blueprints_flagged]

theorem blueprints_next (stream : AFMultipartBodyStream) (call : StreamCall) :
    (AFMultipartBodyStream.system.next stream call).httpBodyParts.map blueprint =
      stream.httpBodyParts.map blueprint := by
  cases call with
  | «open» =>
      change stream.open.httpBodyParts.map blueprint = _
      unfold AFMultipartBodyStream.open
      split
      · rfl
      · exact blueprints_setInitialAndFinalBoundaries _
  | close => rfl
  | read length =>
      change (stream.read length).2.httpBodyParts.map blueprint = _
      unfold AFMultipartBodyStream.read
      split
      · rfl
      · exact blueprints_readRounds _ _ _ _

theorem blueprints_run (stream : AFMultipartBodyStream) (calls : List StreamCall) :
    (AFMultipartBodyStream.system.run stream calls).httpBodyParts.map blueprint =
      stream.httpBodyParts.map blueprint := by
  induction calls generalizing stream with
  | nil => rfl
  | cons call rest inductionHypothesis =>
      rw [EventSystem.run_cons, inductionHypothesis, blueprints_next]

/-- A part that makes its own stream, as it was appended. -/
def Resendable (part : AFHTTPBodyPart) : Prop :=
  part.body ≠ .inputStream ∧ part = (blueprint part).build

theorem copy_eq_build {part : AFHTTPBodyPart} (ownStream : part.body ≠ .inputStream) :
    part.copy = (blueprint part).build := by
  unfold AFHTTPBodyPart.copy Blueprint.build blueprint AFHTTPBodyPart.make
  congr 1
  cases body : part.body with
  | data bytes => rfl
  | url content => cases content <;> rfl
  | inputStream => exact absurd body ownStream

/-- However a finalized stream of such parts has been throttled and used, its
copy is the stream that was finalized, without the throttling. -/
theorem copy_run_finalized {parts : List AFHTTPBodyPart}
    (resendable : forall part, part ∈ parts -> Resendable part) (packet : Nat)
    (calls : List StreamCall) :
    (AFMultipartBodyStream.system.run (throttled packet parts) calls).copy = finalized parts := by
  have sources : (AFMultipartBodyStream.system.run (throttled packet parts) calls).httpBodyParts.map blueprint =
      parts.map blueprint := by
    rw [blueprints_run]
    exact blueprints_setInitialAndFinalBoundaries parts
  have ownStreams : forall part,
      part ∈ (AFMultipartBodyStream.system.run (throttled packet parts) calls).httpBodyParts ->
      part.body ≠ .inputStream := by
    intro part listed
    have inSources : blueprint part ∈ parts.map blueprint := by
      rw [← sources]
      exact List.mem_map_of_mem listed
    rcases List.mem_map.mp inSources with ⟨original, member, same⟩
    have sameBody : original.body = part.body := congrArg Blueprint.body same
    rw [← sameBody]
    exact (resendable original member).1
  have copies : (AFMultipartBodyStream.system.run (throttled packet parts) calls).httpBodyParts.map
      AFHTTPBodyPart.copy = parts := by
    have built : (AFMultipartBodyStream.system.run (throttled packet parts) calls).httpBodyParts.map
        AFHTTPBodyPart.copy = (parts.map blueprint).map Blueprint.build := by
      rw [← sources, List.map_map]
      exact List.map_congr_left fun part listed => copy_eq_build (ownStreams part listed)
    rw [built, List.map_map]
    exact (List.map_congr_left fun part listed => (resendable part listed).2.symm).trans
      (List.map_id parts)
  rw [AFMultipartBodyStream.copy, copies]
  rfl

/-- A form with one value, read in part, closed and copied. -/
theorem copy_of_partly_read :
    (AFMultipartBodyStream.system.run
        (throttled 4 [AFHTTPBodyPart.make [] (text "b") (.data [1, 2]) 2 true noStream])
        [.open, .read 6, .read 1, .close]).copy =
      finalized [AFHTTPBodyPart.make [] (text "b") (.data [1, 2]) 2 true noStream] := by
  refine copy_run_finalized ?_ 4 _
  intro part listed
  rw [List.mem_singleton.mp listed]
  exact ⟨nofun, rfl⟩

/-! ## The format of the body -/

/-- A header as a line of the body. -/
def headerLine (header : NSString × NSString) : NSData :=
  encodedData (header.1 ++ text ": " ++ header.2)

/-- A part as it stands in the body. -/
def wirePart (part : AFHTTPBodyPart) : Part :=
  ⟨part.headers.map headerLine, part.inputStream.chunks.flatten⟩

/-- A part whose headers can be encoded. -/
def Writable (part : AFHTTPBodyPart) : Prop :=
  forall header, header ∈ part.headers -> Encodable (header.1 ++ text ": " ++ header.2)

theorem crlf_encodes : Encodable crlf ∧ encodedData crlf = lineEnd := by
  have ascii := encodedData_of_ascii crlf_ascii
  exact ⟨ascii.1, ascii.2.trans rfl⟩

theorem headersData_eq {part : AFHTTPBodyPart} (writable : Writable part) :
    part.headersData = Multipart.encodeLines (part.headers.map headerLine) ++ lineEnd := by
  have lines : forall headers : List (NSString × NSString),
      (forall header, header ∈ headers -> Encodable (header.1 ++ text ": " ++ header.2)) ->
      Encodable (headers.flatMap fun header => header.1 ++ text ": " ++ header.2 ++ crlf) ∧
        encodedData (headers.flatMap fun header => header.1 ++ text ": " ++ header.2 ++ crlf) =
          Multipart.encodeLines (headers.map headerLine) := by
    intro headers encodable
    induction headers with
    | nil => exact encodedData_of_ascii fun _ listed => absurd listed List.not_mem_nil
    | cons header rest inductionHypothesis =>
        have parts := List.forall_mem_cons.mp encodable
        have line := parts.1.append crlf_encodes.1
        have later := inductionHypothesis parts.2
        have both := line.1.append later.1
        rw [List.flatMap_cons]
        refine ⟨both.1, both.2.trans ?_⟩
        rw [line.2, later.2, crlf_encodes.2]
        rfl
  have before := lines part.headers writable
  have all := before.1.append crlf_encodes.1
  rw [AFHTTPBodyPart.headersData, AFHTTPBodyPart.stringForHeaders, all.2, before.2, crlf_encodes.2]

/-- A whole part between the lines before and behind it. -/
theorem whole_eq {part : AFHTTPBodyPart} (bounded : Bounded part) (writable : Writable part)
    (isFirst isLast : Bool) :
    whole isFirst isLast part =
      (if isFirst then Multipart.dashed (asciiBytes part.boundary) ++ lineEnd
        else Multipart.delimiter (asciiBytes part.boundary) ++ lineEnd) ++
      (Multipart.encodePart (wirePart part) ++
        if isLast then Multipart.delimiter (asciiBytes part.boundary) ++ (45 :: 45 :: lineEnd)
        else []) := by
  have opening : encodedData
      (if isFirst then initialBoundary part.boundary else encapsulationBoundary part.boundary) =
      if isFirst then Multipart.dashed (asciiBytes part.boundary) ++ lineEnd
        else Multipart.delimiter (asciiBytes part.boundary) ++ lineEnd := by
    cases isFirst with
    | true => exact encodedData_initialBoundary bounded
    | false => exact encodedData_encapsulationBoundary bounded
  rw [whole, opening, headersData_eq writable, encodedData_finalBoundary bounded]
  simp only [Multipart.encodePart, wirePart, List.append_assoc]

/-- The parts behind the first one. -/
theorem flatMap_whole_of_pos {boundary : NSString} {parts : List AFHTTPBodyPart}
    (sameBoundary : forall part, part ∈ parts -> part.boundary = boundary)
    (bounded : forall part, part ∈ parts -> Bounded part)
    (writable : forall part, part ∈ parts -> Writable part) (nonempty : parts ≠ [])
    {start count : Nat} (positive : 0 < start) (last : start + parts.length = count) :
    ((parts.zipIdx start).flatMap fun indexed =>
        whole (decide (indexed.2 = 0)) (decide (indexed.2 + 1 = count)) indexed.1) =
      Multipart.delimiter (asciiBytes boundary) ++ (lineEnd ++
        Multipart.encodeParts (asciiBytes boundary) (parts.map wirePart)) := by
  induction parts generalizing start with
  | nil => exact absurd rfl nonempty
  | cons part rest inductionHypothesis =>
      have boundaries := List.forall_mem_cons.mp sameBoundary
      have allBounded := List.forall_mem_cons.mp bounded
      have allWritable := List.forall_mem_cons.mp writable
      rw [List.zipIdx_cons, List.flatMap_cons]
      simp only
      rw [whole_eq allBounded.1 allWritable.1, boundaries.1, decide_eq_false (by omega : ¬ start = 0),
        if_neg Bool.false_ne_true]
      cases rest with
      | nil =>
          rw [decide_eq_true (show start + 1 = count from last), if_pos rfl, List.map_cons,
            List.map_nil, Multipart.encodeParts, List.zipIdx_nil, List.flatMap_nil, List.append_nil,
            List.append_assoc]
      | cons next others =>
          rw [List.length_cons, List.length_cons] at last
          rw [inductionHypothesis boundaries.2 allBounded.2 allWritable.2 (List.cons_ne_nil _ _)
            (Nat.succ_pos start) (by rw [List.length_cons]; omega),
            decide_eq_false (by omega : ¬ start + 1 = count), if_neg Bool.false_ne_true,
            List.append_nil]
          simp only [List.append_assoc, List.map_cons, Multipart.encodeParts]

/-- The bytes of a finalized stream are the multipart encoding of its parts. -/
theorem pending_finalized_eq_encode {boundary : NSString} {parts : List AFHTTPBodyPart}
    (fresh : forall part, part ∈ parts -> Fresh part)
    (sameBoundary : forall part, part ∈ parts -> part.boundary = boundary)
    (bounded : forall part, part ∈ parts -> Bounded part)
    (writable : forall part, part ∈ parts -> Writable part) (nonempty : parts ≠ []) :
    (finalized parts).pending = Multipart.encode (asciiBytes boundary) (parts.map wirePart) := by
  rw [pending_finalized fresh]
  cases parts with
  | nil => exact absurd rfl nonempty
  | cons part rest =>
      have boundaries := List.forall_mem_cons.mp sameBoundary
      have allBounded := List.forall_mem_cons.mp bounded
      have allWritable := List.forall_mem_cons.mp writable
      rw [List.zipIdx_cons, List.flatMap_cons]
      simp only
      rw [whole_eq allBounded.1 allWritable.1, boundaries.1, decide_true, if_pos rfl,
        Multipart.encode]
      cases rest with
      | nil =>
          simp only [List.length_cons, List.length_nil, List.zipIdx_nil, List.flatMap_nil,
            List.append_nil, List.map_cons, List.map_nil, Multipart.encodeParts, decide_true, if_true,
            List.append_assoc]
      | cons next others =>
          rw [flatMap_whole_of_pos boundaries.2 allBounded.2 allWritable.2 (List.cons_ne_nil _ _)
            (by omega) (by simp only [List.length_cons]; omega)]
          have notLast : decide (0 + 1 = (part :: next :: others).length) = false :=
            decide_eq_false (by simp only [List.length_cons]; omega)
          rw [notLast, if_neg Bool.false_ne_true, List.append_nil]
          simp only [List.append_assoc, List.map_cons, Multipart.encodeParts]

end AFNetworking
end Network
end HowBigDemo
