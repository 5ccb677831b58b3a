import HowBigDemo.Network.MultipartForm

namespace HowBigDemo
namespace Network
namespace AFNetworking

open Library

/-!
# What a server reads of an uploaded form

The request of `LumiRequest postWithURL:` is followed to its other end.  The
loading system opens the body stream and reads it in pieces of any size; a
server puts the pieces together, cuts them at the boundary, takes a name from
the disposition of each part and reads it as a path.  It finds every leaf of
the parameters with its path, provided that the texts can be encoded, that
the keys can stand in quotation marks and brackets and that no value contains
the delimiter.
-/

/-- The fields that the code makes of the parameters: it leaves out those that
have no data. -/
def formFields (descriptions : Descriptions) (parameters : List (NSString × Parameter)) :
    List (NSString × NSData) :=
  (pairsFromDictionary descriptions parameters).filterMap fun pair =>
    (dataOfParameter descriptions pair.value).map fun data =>
      (pair.field.getD (text "(null)"), data)

/-- The part of a field. -/
def fieldPart (endsEagerly : Bool) (boundary : NSString) (field : NSString × NSData) :
    AFHTTPBodyPart :=
  AFHTTPBodyPart.make [(text "Content-Disposition", AFStreamingMultipartFormData.disposition field.1)]
    boundary (.data field.2) field.2.length endsEagerly noStream

/-! ## A receiver -/

/-- What a receiver looks for in a header line. -/
def nameOpening : NSData :=
  asciiBytes (text "Content-Disposition: form-data; name=\"")

/-- The name between the quotation marks. -/
def readName (line : NSData) : Option NSString :=
  if nameOpening <+: line then
    (cutAtFirst [34] (line.drop nameOpening.length)).bind fun cut =>
      decodeRun (cut.1.map UInt8.toNat)
  else none

def readField (part : Part) : Option (NSString × NSData) :=
  match part.lines with
  | [line] => (readName line).map fun name => (name, part.content)
  | _ => none

/-- A receiver that knows the boundary. -/
def readForm (boundary : NSString) (body : NSData) : Option (List (NSString × NSData)) :=
  (Multipart.parse (asciiBytes boundary) body).bind fun parts => parts.mapM readField

/-- A receiver that reads the names as paths. -/
def readUpload (boundary : NSString) (body : NSData) : Option (List (List PathStep × NSData)) :=
  (readForm boundary body).bind fun fields =>
    fields.mapM fun field => (readPath field.1).map fun path => (path, field.2)

/-! ## Fields as parts -/

/-- Appending the parameters appends the parts of the form fields. -/
theorem appendParameters_eq (endsEagerly : Bool) (descriptions : Descriptions)
    (formData : AFStreamingMultipartFormData) (parameters : List (NSString × Parameter)) :
    appendParameters endsEagerly descriptions formData parameters =
      { formData with
        bodyStream :=
          { formData.bodyStream with
            httpBodyParts := formData.bodyStream.httpBodyParts ++
              (formFields descriptions parameters).map (fieldPart endsEagerly formData.boundary) } } := by
  unfold appendParameters formFields
  induction pairsFromDictionary descriptions parameters generalizing formData with
  | nil =>
      rw [List.foldl_nil, List.filterMap_nil, List.map_nil, List.append_nil]
  | cons pair rest inductionHypothesis =>
      rw [List.foldl_cons, inductionHypothesis, List.filterMap_cons]
      unfold appendPair
      cases dataOfParameter descriptions pair.value with
      | none => rfl
      | some data =>
          simp only [Option.map_some, List.map_cons, AFStreamingMultipartFormData.appendPartWithFormData,
            AFStreamingMultipartFormData.appendPartWithHeaders,
            AFStreamingMultipartFormData.appendHTTPBodyPart, List.append_assoc, List.singleton_append]
          rfl

section Fields

variable (endsEagerly : Bool) {boundary : NSString} (field : NSString × NSData)

theorem fresh_fieldPart (boundary : NSString) : Fresh (fieldPart endsEagerly boundary field) :=
  ⟨rfl, rfl, rfl, rfl, congrArg List.length (List.append_nil field.2).symm⟩

/-- The units in front of the name of a field. -/
def namePrefix : NSString :=
  text "Content-Disposition" ++ text ": " ++ text "form-data; name=\""

theorem namePrefix_eq : namePrefix = text "Content-Disposition: form-data; name=\"" := by
  decide +kernel

theorem namePrefix_ascii : forall unit, unit ∈ namePrefix -> unit.toNat < 128 :=
  List.all_iff_forall_prop.mp (by decide +kernel)

theorem header_eq (name : NSString) :
    text "Content-Disposition" ++ text ": " ++ AFStreamingMultipartFormData.disposition name =
      namePrefix ++ (name ++ [quotationMark]) := by
  unfold AFStreamingMultipartFormData.disposition namePrefix
  simp only [List.append_assoc]

/-- The header line of a field around its encoded name. -/
theorem headerLine_field {name : NSString} (encodable : Encodable name) :
    Encodable (text "Content-Disposition" ++ text ": " ++ AFStreamingMultipartFormData.disposition name) ∧
      headerLine (text "Content-Disposition", AFStreamingMultipartFormData.disposition name) =
        nameOpening ++ (encodedData name ++ [34]) := by
  have quote : forall unit, unit ∈ [quotationMark] -> unit.toNat < 128 :=
    List.all_iff_forall_prop.mp rfl
  have opening := encodedData_of_ascii namePrefix_ascii
  have closing := encodedData_of_ascii quote
  have quoted := encodable.append closing.1
  have line := opening.1.append quoted.1
  rw [headerLine, header_eq]
  refine ⟨line.1, ?_⟩
  rw [line.2, quoted.2, opening.2, closing.2, namePrefix_eq]
  rfl

end Fields

/-! ## Bytes of a name -/

theorem ascii_mem_utf8 {scalar byte : Nat} (listed : byte ∈ utf8 scalar) (ascii : byte < 128) :
    scalar = byte := by
  unfold utf8 at listed
  split at listed
  · exact (List.mem_singleton.mp listed).symm
  · split at listed
    · simp only [List.mem_cons, List.not_mem_nil, or_false] at listed
      omega
    · split at listed <;> simp only [List.mem_cons, List.not_mem_nil, or_false] at listed <;> omega

/-- An ASCII byte of an encoded text is a unit of the text. -/
theorem mem_of_ascii_mem_encodedData {string : NSString} {byte : UInt8} (ascii : byte.toNat < 128)
    (listed : byte ∈ encodedData string) : UInt16.ofNat byte.toNat ∈ string := by
  unfold encodedData dataUsingEncoding utf8Bytes at listed
  cases decodes : utf16Decode string with
  | none =>
      rw [decodes] at listed
      exact absurd listed List.not_mem_nil
  | some scalars =>
      rw [decodes] at listed
      have parts := (utf16Decode_eq_some_iff string scalars).mp decodes
      change byte ∈ (scalars.flatMap utf8).map UInt8.ofNat at listed
      rcases List.mem_map.mp listed with ⟨value, inBytes, rfl⟩
      rcases List.mem_flatMap.mp inBytes with ⟨scalar, member, inScalar⟩
      have isScalar := parts.1 scalar member
      have bound := utf8_lt scalar isScalar inScalar
      have sameValue : (UInt8.ofNat value).toNat = value := UInt8.toNat_ofNat_of_lt' bound
      rw [sameValue] at ascii ⊢
      have same := ascii_mem_utf8 inScalar ascii
      rw [parts.2]
      apply List.mem_flatMap.mpr
      refine ⟨scalar, member, ?_⟩
      rw [same, utf16, if_pos (by omega)]
      exact List.mem_singleton_self _

/-- A receiver decodes an encoded text. -/
theorem decodeRun_encodedData {string : NSString} (encodable : Encodable string) :
    decodeRun ((encodedData string).map UInt8.toNat) = some string := by
  rcases (encodable_iff string).mp encodable with ⟨scalars, decodes⟩
  have parts := (utf16Decode_eq_some_iff string scalars).mp decodes
  have encodes : utf8Bytes string = some (scalars.flatMap utf8) := by
    rw [utf8Bytes, decodes]
    rfl
  have bytes : (encodedData string).map UInt8.toNat = scalars.flatMap utf8 := by
    unfold encodedData dataUsingEncoding
    rw [encodes]
    change ((scalars.flatMap utf8).map UInt8.ofNat).map UInt8.toNat = _
    rw [List.map_map]
    refine (List.map_congr_left ?_).trans (List.map_id _)
    intro value listed
    rcases List.mem_flatMap.mp listed with ⟨scalar, member, inScalar⟩
    exact UInt8.toNat_ofNat_of_lt' (utf8_lt scalar (parts.1 scalar member) inScalar)
  rw [bytes]
  exact decodeRun_of_utf8Bytes encodes

/-- A name that can stand between quotation marks. -/
structure PlainName (name : NSString) : Prop where
  encodable : Encodable name
  unquoted : quotationMark ∉ name
  unbroken : 13 ∉ name

theorem readName_headerLine {name : NSString} (plain : PlainName name) :
    readName (headerLine (text "Content-Disposition", AFStreamingMultipartFormData.disposition name)) =
      some name := by
  have unquoted : (34 : UInt8) ∉ encodedData name := fun listed =>
    plain.unquoted (mem_of_ascii_mem_encodedData (by decide) listed)
  have cut : cutAtFirst [34] (encodedData name ++ ([34] ++ [])) = some (encodedData name, []) :=
    cutAtFirst_append List.not_mem_nil (Multipart.not_infix_of_notMem unquoted) []
  rw [List.append_nil] at cut
  rw [(headerLine_field plain.encodable).2, readName, if_pos (List.prefix_append _ _), List.drop_left,
    cut]
  exact decodeRun_encodedData plain.encodable

theorem plainLine_headerLine {name : NSString} (plain : PlainName name) :
    Multipart.PlainLine
      (headerLine (text "Content-Disposition", AFStreamingMultipartFormData.disposition name)) := by
  rw [(headerLine_field plain.encodable).2]
  have opens : nameOpening = 67 :: nameOpening.tail := by decide +kernel
  refine ⟨?_, ?_, ?_⟩
  · rw [opens]
    exact List.cons_ne_nil _ _
  · intro listed
    rcases List.mem_append.mp listed with inOpening | later
    · exact absurd inOpening (by decide +kernel)
    · rcases List.mem_append.mp later with inName | isQuote
      · exact plain.unbroken (mem_of_ascii_mem_encodedData (by decide) inName)
      · exact absurd (List.mem_singleton.mp isQuote) (by decide)
  · rw [opens]
    exact fun same => absurd (Option.some.inj same) (by decide)

/-! ## From the parameters to the server -/

/-- A form that survives its format: plain names, and values without the
delimiter, the line end before the value included. -/
def Survives (boundary : NSString) (fields : List (NSString × NSData)) : Prop :=
  forall field, field ∈ fields -> PlainName field.1 ∧
    ¬ Multipart.delimiter (asciiBytes boundary) <:+: lineEnd ++ field.2

theorem readField_wirePart (endsEagerly : Bool) (boundary : NSString) {field : NSString × NSData}
    (plain : PlainName field.1) :
    readField (wirePart (fieldPart endsEagerly boundary field)) = some field := by
  have lines : (wirePart (fieldPart endsEagerly boundary field)).lines =
      [headerLine (text "Content-Disposition", AFStreamingMultipartFormData.disposition field.1)] := rfl
  have content : (wirePart (fieldPart endsEagerly boundary field)).content = field.2 :=
    List.append_nil field.2
  unfold readField
  simp only [lines, content, readName_headerLine plain, Option.map_some]

/-- A receiver reads the fields off the multipart encoding of their parts. -/
theorem readForm_encode (endsEagerly : Bool) {boundary : NSString}
    (ascii : forall unit, unit ∈ boundary -> unit.toNat < 128 ∧ unit ≠ 13)
    {fields : List (NSString × NSData)} (nonempty : fields ≠ []) (survives : Survives boundary fields) :
    readForm boundary (Multipart.encode (asciiBytes boundary)
      ((fields.map (fieldPart endsEagerly boundary)).map wirePart)) = some fields := by
  have unbroken : (13 : UInt8) ∉ asciiBytes boundary := by
    intro listed
    rcases List.mem_map.mp listed with ⟨unit, member, same⟩
    have properties := ascii unit member
    apply properties.2
    apply UInt16.toNat_inj.mp
    have value := congrArg UInt8.toNat same
    rwa [UInt8.toNat_ofNat_of_lt' (Nat.lt_trans properties.1 (by decide))] at value
  have separable : forall part, part ∈ (fields.map (fieldPart endsEagerly boundary)).map wirePart ->
      Multipart.Separable (asciiBytes boundary) part := by
    intro part listed
    rw [List.map_map] at listed
    rcases List.mem_map.mp listed with ⟨field, member, rfl⟩
    have survived := survives field member
    constructor
    · intro line inLines
      rw [List.mem_singleton.mp inLines]
      exact plainLine_headerLine survived.1
    · have content : (wirePart (fieldPart endsEagerly boundary field)).content = field.2 :=
        List.append_nil field.2
      change ¬ _ <:+: lineEnd ++ (wirePart (fieldPart endsEagerly boundary field)).content
      rw [content]
      exact survived.2
  have reads : ((fields.map (fieldPart endsEagerly boundary)).map wirePart).mapM readField =
      some fields := by
    clear separable nonempty
    rw [List.map_map]
    induction fields with
    | nil => rfl
    | cons field rest inductionHypothesis =>
        have survived := List.forall_mem_cons.mp survives
        have here := readField_wirePart endsEagerly boundary survived.1.1
        rw [List.map_cons, List.mapM_cons, inductionHypothesis survived.2]
        change (readField (wirePart (fieldPart endsEagerly boundary field))).bind _ = _
        rw [here]
        rfl
  rw [readForm, Multipart.parse_encode unbroken (by simpa using nonempty) separable]
  exact reads

theorem valueForHTTPHeaderField_setValue (request : NSMutableURLRequest) (value field : NSString) :
    (request.setValueForHTTPHeaderField value field).valueForHTTPHeaderField field = some value := by
  have cleared : (request.httpHeaders.filter fun header => !sameField header.1 field).find?
      (fun header => sameField header.1 field) = none := by
    rw [List.find?_eq_none]
    intro header listed
    have kept : sameField header.1 field = false := Bool.not_eq_true' _ |>.mp (List.mem_filter.mp listed).2
    rw [kept]
    exact Bool.false_ne_true
  have here : sameField field field = true := beq_self_eq_true _
  unfold NSMutableURLRequest.valueForHTTPHeaderField NSMutableURLRequest.setValueForHTTPHeaderField
  rw [List.find?_append, cleared, Option.none_or, List.find?_singleton, if_pos here]
  rfl

section Upload

variable (endsEagerly : Bool) (descriptions : Descriptions) (boundaries : NSString -> Nat -> Bool)

/-- The request of a form: its stream is the finalized stream of the fields,
and its length is the announced one. -/
theorem request_of_form (serializerHeaders : List (NSString × NSString)) (random : UInt32 × UInt32)
    (method url : NSString) {parameters : List (NSString × Parameter)}
    (nonempty : formFields descriptions parameters ≠ []) :
    Exists fun request =>
      multipartFormRequestWithMethod endsEagerly descriptions boundaries serializerHeaders random method
          url parameters id = some request ∧
        request.httpBodyStream = some (finalized ((formFields descriptions parameters).map
          (fieldPart endsEagerly (createMultipartFormBoundary random)))) ∧
        request.valueForHTTPHeaderField (text "Content-Length") =
          some (text (toString (finalized ((formFields descriptions parameters).map
            (fieldPart endsEagerly (createMultipartFormBoundary random)))).contentLength)) := by
  refine ⟨_, rfl, ?_⟩
  simp only [id, appendParameters_eq, AFStreamingMultipartFormData.make, AFMultipartBodyStream.make,
    List.nil_append]
  unfold AFStreamingMultipartFormData.requestByFinalizingMultipartFormData
  rw [if_neg (by simpa [AFMultipartBodyStream.isEmpty] using nonempty)]
  exact ⟨rfl, valueForHTTPHeaderField_setValue _ _ _⟩

end Upload

/-- However the loading system cuts its reads, a server that puts the pieces
together has as many bytes as the request announces, and reads from them the
fields of the form, in their order. -/
theorem readForm_of_upload (endsEagerly : Bool) (descriptions : Descriptions)
    (boundaries : NSString -> Nat -> Bool) (serializerHeaders : List (NSString × NSString))
    (random : UInt32 × UInt32) (method url : NSString) {parameters : List (NSString × Parameter)}
    (nonempty : formFields descriptions parameters ≠ [])
    (survives : Survives (createMultipartFormBoundary random) (formFields descriptions parameters)) :
    Exists fun request => Exists fun stream => Exists fun length : Nat =>
      multipartFormRequestWithMethod endsEagerly descriptions boundaries serializerHeaders random method
          url parameters id = some request ∧
        request.httpBodyStream = some stream ∧
        request.valueForHTTPHeaderField (text "Content-Length") = some (text (toString length)) ∧
        forall sizes, length ≤ ByteSource.demand AFMultipartBodyStream.integerMax sizes ->
          (AFMultipartBodyStream.system.trace stream
              (.open :: sizes.map StreamCall.read)).flatten.length = length ∧
            readForm (createMultipartFormBoundary random)
                (AFMultipartBodyStream.system.trace stream
                  (.open :: sizes.map StreamCall.read)).flatten =
              some (formFields descriptions parameters) := by
  rcases request_of_form endsEagerly descriptions boundaries serializerHeaders random method url
    nonempty with ⟨request, built, body, announced⟩
  refine ⟨request, _, _, built, body, announced, ?_⟩
  clear built body announced
  have ascii := createMultipartFormBoundary_ascii random
  revert nonempty survives ascii
  generalize createMultipartFormBoundary random = boundary
  generalize formFields descriptions parameters = fields
  intro nonempty survives ascii
  have fresh : forall part, part ∈ fields.map (fieldPart endsEagerly boundary) -> Fresh part := by
    intro part listed
    rcases List.mem_map.mp listed with ⟨field, _, rfl⟩
    exact fresh_fieldPart endsEagerly field boundary
  have sameBoundary : forall part, part ∈ fields.map (fieldPart endsEagerly boundary) ->
      part.boundary = boundary := by
    intro part listed
    rcases List.mem_map.mp listed with ⟨field, _, rfl⟩
    rfl
  have bounded : forall part, part ∈ fields.map (fieldPart endsEagerly boundary) -> Bounded part :=
    fun part listed unit inBoundary =>
      (ascii unit (by rwa [sameBoundary part listed] at inBoundary)).1
  have writable : forall part, part ∈ fields.map (fieldPart endsEagerly boundary) ->
      Writable part := by
    intro part listed header inHeaders
    rcases List.mem_map.mp listed with ⟨field, member, rfl⟩
    rw [List.mem_singleton.mp inHeaders]
    exact (headerLine_field (survives field member).1.encodable).1
  have partsNonempty : fields.map (fieldPart endsEagerly boundary) ≠ [] := by
    simpa using nonempty
  have valid := invariant_finalized fresh bounded
  have encoded := pending_finalized_eq_encode fresh sameBoundary bounded writable partsNonempty
  have announced := contentLength_finalized fresh
  intro sizes enough
  have observed := (AFMultipartBodyStream.refines_byteSource AFMultipartBodyStream.integerMax).trace_eq
    ⟨valid.1, valid.2, rfl⟩ (.open :: sizes.map StreamCall.read)
  have delivered : (AFMultipartBodyStream.system.trace
      (finalized (fields.map (fieldPart endsEagerly boundary)))
      (.open :: sizes.map StreamCall.read)).flatten =
        (finalized (fields.map (fieldPart endsEagerly boundary))).pending := by
    rw [observed, EventSystem.trace_cons]
    rw [announced] at enough
    exact ByteSource.flatten_trace_reads AFMultipartBodyStream.integerMax rfl enough
  rw [delivered]
  refine ⟨announced.symm, ?_⟩
  rw [encoded]
  exact readForm_encode endsEagerly ascii nonempty survives

/-! ## From the leaves to the server -/

/-- What should arrive of a leaf: its bytes if it is data, nothing if it is
null, and its description in UTF-8 otherwise. -/
def leafContent (descriptions : Descriptions) : Parameter -> NSData
  | .data bytes _ => bytes
  | .null => []
  | value => encodedData (value.description descriptions)

/-- The description of a leaf can be encoded if it is sent. -/
def EncodableLeaf (descriptions : Descriptions) : Parameter -> Prop
  | .data _ _ => True
  | .null => True
  | value => Encodable (value.description descriptions)

/-- A leaf that the format can hold. -/
structure Uploadable (descriptions : Descriptions) (boundary : NSString)
    (leaf : List PathStep × Parameter) : Prop where
  path : PlainPath leaf.1
  keys : forall name, PathStep.key name ∈ leaf.1 -> PlainName name
  encodable : EncodableLeaf descriptions leaf.2
  undelimited : ¬ Multipart.delimiter (asciiBytes boundary) <:+: lineEnd ++
    leafContent descriptions leaf.2

/-- The name of the part of a leaf. -/
def leafName (path : List PathStep) : NSString :=
  (path.foldl fieldAfter none).getD []

theorem PlainName.append {first second : NSString} (firstPlain : PlainName first)
    (secondPlain : PlainName second) : PlainName (first ++ second) where
  encodable := (firstPlain.encodable.append secondPlain.encodable).1
  unquoted := by
    rw [List.mem_append, not_or]
    exact ⟨firstPlain.unquoted, secondPlain.unquoted⟩
  unbroken := by
    rw [List.mem_append, not_or]
    exact ⟨firstPlain.unbroken, secondPlain.unbroken⟩

theorem plainName_leftBracket : PlainName [leftBracket] :=
  ⟨(encodedData_of_ascii (List.all_iff_forall_prop.mp rfl)).1, by decide, by decide⟩

theorem plainName_rightBracket : PlainName [rightBracket] :=
  ⟨(encodedData_of_ascii (List.all_iff_forall_prop.mp rfl)).1, by decide, by decide⟩

theorem plainName_nil : PlainName [] :=
  ⟨(encodedData_of_ascii fun _ listed => absurd listed List.not_mem_nil).1, List.not_mem_nil,
    List.not_mem_nil⟩

/-- Plain keys make a plain name. -/
theorem plainName_leafName {path : List PathStep} (plain : PlainPath path)
    (keys : forall name, PathStep.key name ∈ path -> PlainName name) : PlainName (leafName path) := by
  rcases path with _ | ⟨_ | _, steps⟩
  · exact plain.elim
  · rename_i name
    have steps : forall steps : List PathStep,
        (forall name, PathStep.key name ∈ steps -> PlainName name) ->
        PlainName (steps.flatMap fun step => leftBracket :: step.segment) := by
      intro steps keys
      induction steps with
      | nil => exact plainName_nil
      | cons step rest inductionHypothesis =>
          have later := inductionHypothesis fun name listed => keys name (List.mem_cons_of_mem _ listed)
          have segment : PlainName step.segment := by
            cases step with
            | key name => exact (keys name List.mem_cons_self).append plainName_rightBracket
            | element => exact plainName_rightBracket
          exact (plainName_leftBracket.append segment).append later
    rw [leafName, List.foldl_cons]
    change PlainName ((List.foldl fieldAfter (some name) _).getD [])
    rw [foldl_fieldAfter, Option.getD_some]
    exact (keys name List.mem_cons_self).append
      (steps _ fun name listed => keys name (List.mem_cons_of_mem _ listed))
  · exact plain.elim

theorem dataOfParameter_of_encodableLeaf {descriptions : Descriptions} {value : Parameter}
    (encodable : EncodableLeaf descriptions value) :
    dataOfParameter descriptions value = some (leafContent descriptions value) := by
  cases value with
  | data bytes description => rfl
  | null => rfl
  | string value => exact encodable
  | object description => exact encodable
  | dictionary entries => exact encodable
  | array elements => exact encodable
  | set elements => exact encodable

/-- If every leaf can be encoded, the fields of the form are the leaves. -/
theorem formFields_eq_leaves {descriptions : Descriptions} {parameters : List (NSString × Parameter)}
    (paths : forall leaf, leaf ∈ leaves descriptions (.dictionary parameters) -> PlainPath leaf.1)
    (encodable : forall leaf, leaf ∈ leaves descriptions (.dictionary parameters) ->
      EncodableLeaf descriptions leaf.2) :
    formFields descriptions parameters =
      (leaves descriptions (.dictionary parameters)).map fun leaf =>
        (leafName leaf.1, leafContent descriptions leaf.2) := by
  rw [formFields, pairsFromDictionary, pairsFromKeyAndValue_eq_leaves]
  generalize leaves descriptions (.dictionary parameters) = all at paths encodable
  induction all with
  | nil => rfl
  | cons leaf rest inductionHypothesis =>
      have pathsOf := List.forall_mem_cons.mp paths
      have encodableOf := List.forall_mem_cons.mp encodable
      have named : (leaf.1.foldl fieldAfter none).getD (text "(null)") = leafName leaf.1 := by
        rcases leaf with ⟨_ | ⟨_ | _, steps⟩, value⟩
        · exact pathsOf.1.elim
        · rename_i name
          rw [leafName, List.foldl_cons]
          change (List.foldl fieldAfter (some name) steps).getD _ =
            (List.foldl fieldAfter (some name) steps).getD _
          rw [foldl_fieldAfter]
          rfl
        · exact pathsOf.1.elim
      have here : (dataOfParameter descriptions (pairOfLeaf none leaf).value).map (fun data =>
          ((pairOfLeaf none leaf).field.getD (text "(null)"), data)) =
            some (leafName leaf.1, leafContent descriptions leaf.2) := by
        rw [pairOfLeaf, dataOfParameter_of_encodableLeaf encodableOf.1, named]
        rfl
      rw [List.map_cons, List.map_cons, ← inductionHypothesis pathsOf.2 encodableOf.2]
      exact List.filterMap_cons_some here

/-- The names of the leaves are read as their paths. -/
theorem mapM_readPath_leafName {all : List (List PathStep × NSData)}
    (plain : forall leaf, leaf ∈ all -> PlainPath leaf.1) :
    (all.map fun leaf => (leafName leaf.1, leaf.2)).mapM
      (fun field => (readPath field.1).map fun path => (path, field.2)) = some all := by
  induction all with
  | nil => rfl
  | cons leaf rest inductionHypothesis =>
      have plainOf := List.forall_mem_cons.mp plain
      have path : readPath (leafName leaf.1) = some leaf.1 := readPath_field plainOf.1
      rw [List.map_cons, List.mapM_cons, inductionHypothesis plainOf.2]
      change ((readPath (leafName leaf.1)).map _).bind _ = _
      rw [path]
      rfl

/-- However the loading system cuts its reads, a server that puts the pieces
together has as many bytes as the request announces, and reads from them
every leaf of the parameters with its path and its content, in sorted
order. -/
theorem readUpload_of_leaves (endsEagerly : Bool) (descriptions : Descriptions)
    (boundaries : NSString -> Nat -> Bool) (serializerHeaders : List (NSString × NSString))
    (random : UInt32 × UInt32) (method url : NSString) {parameters : List (NSString × Parameter)}
    (nonempty : leaves descriptions (.dictionary parameters) ≠ [])
    (uploadable : forall leaf, leaf ∈ leaves descriptions (.dictionary parameters) ->
      Uploadable descriptions (createMultipartFormBoundary random) leaf) :
    Exists fun request => Exists fun stream => Exists fun length : Nat =>
      multipartFormRequestWithMethod endsEagerly descriptions boundaries serializerHeaders random method
          url parameters id = some request ∧
        request.httpBodyStream = some stream ∧
        request.valueForHTTPHeaderField (text "Content-Length") = some (text (toString length)) ∧
        forall sizes, length ≤ ByteSource.demand AFMultipartBodyStream.integerMax sizes ->
          (AFMultipartBodyStream.system.trace stream
              (.open :: sizes.map StreamCall.read)).flatten.length = length ∧
            readUpload (createMultipartFormBoundary random)
                (AFMultipartBodyStream.system.trace stream
                  (.open :: sizes.map StreamCall.read)).flatten =
              some ((leaves descriptions (.dictionary parameters)).map fun leaf =>
                (leaf.1, leafContent descriptions leaf.2)) := by
  have fields := formFields_eq_leaves (fun leaf listed => (uploadable leaf listed).path)
    (fun leaf listed => (uploadable leaf listed).encodable)
  have someFields : formFields descriptions parameters ≠ [] := by
    rw [fields]
    exact fun empty => nonempty (List.map_eq_nil_iff.mp empty)
  have survives : Survives (createMultipartFormBoundary random) (formFields descriptions parameters) := by
    intro field listed
    rw [fields] at listed
    rcases List.mem_map.mp listed with ⟨leaf, member, rfl⟩
    have known := uploadable leaf member
    exact ⟨plainName_leafName known.path known.keys, known.undelimited⟩
  rcases readForm_of_upload endsEagerly descriptions boundaries serializerHeaders random method url
    someFields survives with ⟨request, stream, length, built, body, announced, reads⟩
  refine ⟨request, stream, length, built, body, announced, fun sizes enough => ?_⟩
  refine ⟨(reads sizes enough).1, ?_⟩
  rw [readUpload, (reads sizes enough).2, Option.bind_some, fields]
  have asPaths := @mapM_readPath_leafName
    ((leaves descriptions (.dictionary parameters)).map fun leaf =>
      (leaf.1, leafContent descriptions leaf.2)) (by
        intro leaf listed
        rcases List.mem_map.mp listed with ⟨original, member, rfl⟩
        exact (uploadable original member).path)
  rwa [List.map_map] at asPaths

theorem uploadable_tagParameters :
    forall leaf, leaf ∈ leaves fewDescriptions (.dictionary tagParameters) ->
      Uploadable fewDescriptions (createMultipartFormBoundary (1, 2)) leaf := by
  have name : PlainName (text "tags") :=
    ⟨(encodedData_of_ascii (List.all_iff_forall_prop.mp rfl)).1, by decide, by decide⟩
  have path : PlainPath [.key (text "tags"), .element] :=
    ⟨by decide, fun step listed => by rw [List.mem_singleton.mp listed]; exact trivial⟩
  have keys : forall key, PathStep.key key ∈ [.key (text "tags"), .element] -> PlainName key := by
    intro key listed
    simp only [List.mem_cons, List.not_mem_nil, or_false, PathStep.key.injEq, reduceCtorEq] at listed
    rw [listed]
    exact name
  intro leaf listed
  rw [leaves_tagParameters] at listed
  simp only [List.mem_cons, List.not_mem_nil, or_false] at listed
  rcases listed with rfl | rfl
  · exact ⟨path, keys, (encodedData_of_ascii (List.all_iff_forall_prop.mp rfl)).1, by decide +kernel⟩
  · exact ⟨path, keys, trivial, by decide +kernel⟩

theorem readUpload_of_tagParameters :
    Exists fun request => Exists fun stream => Exists fun length : Nat =>
      multipartFormRequestWithMethod true fewDescriptions pairBoundary [] (1, 2) (text "POST")
          (text "http://localhost/upload") tagParameters id = some request ∧
        request.httpBodyStream = some stream ∧
        request.valueForHTTPHeaderField (text "Content-Length") = some (text (toString length)) ∧
        forall sizes, length ≤ ByteSource.demand AFMultipartBodyStream.integerMax sizes ->
          (AFMultipartBodyStream.system.trace stream
              (.open :: sizes.map StreamCall.read)).flatten.length = length ∧
            readUpload (createMultipartFormBoundary (1, 2))
                (AFMultipartBodyStream.system.trace stream
                  (.open :: sizes.map StreamCall.read)).flatten =
              some ((leaves fewDescriptions (.dictionary tagParameters)).map fun leaf =>
                (leaf.1, leafContent fewDescriptions leaf.2)) :=
  readUpload_of_leaves true fewDescriptions pairBoundary [] (1, 2) (text "POST")
    (text "http://localhost/upload")
    (by
      rw [leaves_tagParameters]
      exact List.cons_ne_nil _ _)
    uploadable_tagParameters

end AFNetworking
end Network
end HowBigDemo
