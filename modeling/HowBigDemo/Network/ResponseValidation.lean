import HowBigDemo.Network.Requests

namespace HowBigDemo
namespace Network
namespace AFNetworking

/-!
# Validation of a response

The JSON serializer validates the type and the status of a response before it
parses the body.  A wrong type is not reported for an empty body, and an
error of the parser takes the place of a validation error, which it keeps as
its underlying error only if it has none of its own.

The theorems give the exact conditions under which `LumiRequest` hands on a
result, and under which a rejected status can still be found in the error.
-/

/-- What a serializer looks at in a response. -/
structure NSHTTPURLResponse where
  mimeType : Option String
  statusCode : Int64
  hasURL : Bool
  deriving DecidableEq

/-- The two sets of a serializer, the status codes as a range of indices with
its location and its length. -/
structure AFHTTPResponseSerializer where
  acceptableStatusCodes : Option (Nat × Nat)
  acceptableContentTypes : Option (List String)

/-- `NSURLErrorBadServerResponse`. -/
def badServerResponse : Int := -1011

namespace AFHTTPResponseSerializer

/-- `containsObject:[response MIMEType]` for a set that is not nil. -/
def containsType (types : List String) (mimeType : Option String) : Bool :=
  mimeType.any types.contains

/-- `containsIndex:(NSUInteger)response.statusCode`. -/
def containsStatus (range : Nat × Nat) (statusCode : Int64) : Bool :=
  decide (range.1 ≤ statusCode.toUInt64.toNat ∧ statusCode.toUInt64.toNat < range.1 + range.2)

variable (serializer : AFHTTPResponseSerializer)

/-- The type is not acceptable.  A missing type is acceptable without data. -/
def rejectsType (response : NSHTTPURLResponse) (data : Option NSData) : Bool :=
  match serializer.acceptableContentTypes with
  | none => false
  | some types =>
    !containsType types response.mimeType &&
      !(response.mimeType.isNone && (data.getD []).length == 0)

def rejectsStatus (response : NSHTTPURLResponse) : Bool :=
  match serializer.acceptableStatusCodes with
  | none => false
  | some range => !containsStatus range response.statusCode && response.hasURL

/-- `validateResponse:data:error:` with the error it stores, if it finds the
response not valid.  A response that is nil or of another kind is valid. -/
def validateResponse (response : Option NSHTTPURLResponse) (data : Option NSData) :
    Bool × Option NSError :=
  match response with
  | none => (true, none)
  | some response =>
    let typeError :=
      if serializer.rejectsType response data && decide (0 < (data.getD []).length) &&
          response.hasURL then
        errorWithUnderlyingError
          (some (.plain responseSerializationErrorDomain cannotDecodeContentData)) none
      else none
    let validationError :=
      if serializer.rejectsStatus response then
        errorWithUnderlyingError
          (some (.plain responseSerializationErrorDomain badServerResponse)) typeError
      else typeError
    (!(serializer.rejectsType response data || serializer.rejectsStatus response), validationError)

/-- `AFJSONResponseSerializer responseObjectForResponse:data:error:` with an
error pointer that points to nil, removing no null values. -/
def responseObjectForResponse (serialization : JSONSerialization)
    (response : Option NSHTTPURLResponse) (data : Option NSData) :
    Option JSONObject × Option NSError :=
  let (isValid, validationError) := serializer.validateResponse response data
  let error := if isValid then none else validationError
  if !isValid && error.any (errorOrUnderlyingErrorHasCodeInDomain cannotDecodeContentData
      responseSerializationErrorDomain) then (none, error)
  else
    match data with
    | none => (none, error)
    | some data =>
      if IsBlank data then (none, error)
      else
        match serialization false data with
        | .ok responseObject => (some responseObject, errorWithUnderlyingError none error)
        | .error serializationError =>
          (none, errorWithUnderlyingError (some serializationError) error)

/-- A valid response has no validation error. -/
theorem validateResponse_valid {response : Option NSHTTPURLResponse} {data : Option NSData}
    (valid : (serializer.validateResponse response data).1 = true) :
    (serializer.validateResponse response data).2 = none := by
  cases response with
  | none => rfl
  | some response =>
      have accepted : serializer.rejectsType response data = false ∧
          serializer.rejectsStatus response = false := by
        simpa [validateResponse] using valid
      simp [validateResponse, accepted]

/-- Parsing depends on the validation only through its error. -/
theorem responseObjectForResponse_eq (serialization : JSONSerialization)
    (response : Option NSHTTPURLResponse) (data : Option NSData) :
    serializer.responseObjectForResponse serialization response data =
      AFNetworking.responseObjectForResponse serialization data
        (serializer.validateResponse response data).2 := by
  have noError := @validateResponse_valid serializer response data
  unfold AFHTTPResponseSerializer.responseObjectForResponse AFNetworking.responseObjectForResponse
  revert noError
  rcases serializer.validateResponse response data with ⟨isValid, validationError⟩
  intro noError
  cases isValid with
  | true =>
      cases noError rfl
      rfl
  | false => rfl

end AFHTTPResponseSerializer

def lumiContentTypes : List String :=
  ["application/json", "text/json", "text/javascript", "text/html", "text/plain"]

/-- The serializer of `LumiRequest`. -/
def lumiSerializer : AFHTTPResponseSerializer where
  acceptableStatusCodes := some (200, 100)
  acceptableContentTypes := some lumiContentTypes

/-- The exchange as the handlers see it. -/
def exchange (serializer : AFHTTPResponseSerializer) (response : Option NSHTTPURLResponse)
    (data : Option NSData) : Transport :=
  .completed data (serializer.validateResponse response data).2

/-! ## Results -/

section Validation

variable {serializer : AFHTTPResponseSerializer} {response : NSHTTPURLResponse}

/-- With data and a URL, no error is stored exactly for an acceptable type
and an acceptable status. -/
theorem validationError_eq_none_iff (hasURL : response.hasURL = true) {data : NSData}
    (nonempty : data ≠ []) :
    (serializer.validateResponse (some response) (some data)).2 = none ↔
      serializer.rejectsType response (some data) = false ∧ serializer.rejectsStatus response = false := by
  have positive : 0 < data.length := List.length_pos_iff.mpr nonempty
  cases type : serializer.rejectsType response (some data) <;>
    cases status : serializer.rejectsStatus response <;>
      simp [AFHTTPResponseSerializer.validateResponse, type, status, hasURL, positive,
        errorWithUnderlyingError]

/-- An object is a result of an exchange without a validation error. -/
theorem answer_success_some_iff (serialization : JSONSerialization) (data : NSData)
    (validationError : Option NSError) (responseObject : JSONObject) :
    answer serialization (.completed (some data) validationError) = .success (some responseObject) ↔
      validationError = none ∧ Parsed serialization false (some data) responseObject := by
  cases validationError with
  | some validationError =>
      rcases answer_of_validationError serialization (some data) validationError with ⟨error, failed⟩
      rw [failed]
      exact ⟨nofun, fun both => nomatch both.1⟩
  | none =>
      by_cases blank : IsBlank data
      · rw [answer_blank serialization blank]
        refine ⟨nofun, ?_⟩
        rintro ⟨_, body, same, full, _⟩
        cases same
        exact absurd blank full
      · cases parsed : serialization false data with
        | error error =>
            rw [answer_unparsed blank parsed]
            refine ⟨nofun, ?_⟩
            rintro ⟨_, body, same, _, other⟩
            cases same
            rw [parsed] at other
            cases other
        | ok found =>
            rw [answer_parsed blank parsed]
            constructor
            · intro same
              cases same
              exact ⟨rfl, data, rfl, blank, parsed⟩
            · rintro ⟨_, body, same, _, other⟩
              cases same
              rw [parsed] at other
              cases other
              rfl

/-- The handler gets a result exactly if the block gets a dictionary with it. -/
theorem postWithURL_eq_result_iff (serialization : JSONSerialization) (transport : Transport)
    (result : JSONObject) :
    LumiRequest.postWithURL serialization transport = .ok [⟨some result, none⟩] ↔
      Exists fun isMutable => Exists fun entries =>
        answer serialization transport = .success (some (.dictionary isMutable entries)) ∧
          JSONObject.objectForKey entries "result" = some result := by
  unfold LumiRequest.postWithURL
  cases answer serialization transport with
  | failure error =>
      refine ⟨nofun, ?_⟩
      rintro ⟨_, _, impossible, _⟩
      cases impossible
  | success responseObject =>
      constructor
      · intro handled
        cases read : LumiRequest.resultOf responseObject with
        | error exception =>
            simp only [read] at handled
            cases handled
        | ok response =>
            simp only [read] at handled
            injection handled with handled
            injection handled with handled
            injection handled with sameResult
            rw [sameResult] at read
            unfold LumiRequest.resultOf at read
            split at read
            · cases read
            · exact ⟨_, _, rfl, Except.ok.inj read⟩
            · cases read
      · rintro ⟨isMutable, entries, same, found⟩
        cases same
        simp only [LumiRequest.resultOf, found]

end Validation

/-- `LumiRequest` hands on a result exactly if the status is one of success,
the type is one of the five, and the body is a dictionary with that result.
In every other case its handler gets an error or nothing, or it raises. -/
theorem lumi_result_iff (serialization : JSONSerialization) {response : NSHTTPURLResponse}
    (hasURL : response.hasURL = true) (data : NSData) (result : JSONObject) :
    LumiRequest.postWithURL serialization (exchange lumiSerializer (some response) (some data)) =
        .ok [⟨some result, none⟩] ↔
      (200 ≤ response.statusCode.toUInt64.toNat ∧ response.statusCode.toUInt64.toNat < 300) ∧
        (Exists fun type => response.mimeType = some type ∧ type ∈ lumiContentTypes) ∧
        Exists fun isMutable => Exists fun entries =>
          Parsed serialization false (some data) (.dictionary isMutable entries) ∧
            JSONObject.objectForKey entries "result" = some result := by
  have status : lumiSerializer.rejectsStatus response = false ↔
      200 ≤ response.statusCode.toUInt64.toNat ∧ response.statusCode.toUInt64.toNat < 300 := by
    simp only [AFHTTPResponseSerializer.rejectsStatus, lumiSerializer,
      AFHTTPResponseSerializer.containsStatus, hasURL, Bool.and_true, Bool.not_eq_false',
      decide_eq_true_eq]
  have type : forall nonempty : data ≠ [],
      (lumiSerializer.rejectsType response (some data) = false ↔
        Exists fun type => response.mimeType = some type ∧ type ∈ lumiContentTypes) := by
    intro nonempty
    simp only [AFHTTPResponseSerializer.rejectsType, lumiSerializer,
      AFHTTPResponseSerializer.containsType]
    cases mimeType : response.mimeType with
    | none => simp [nonempty]
    | some type =>
        simp only [Option.any_some, Option.isNone_some, Bool.false_and, Bool.not_false, Bool.and_true,
          Bool.not_eq_false', List.contains_iff_mem, Option.some.injEq, exists_eq_left']
  rw [postWithURL_eq_result_iff]
  constructor
  · rintro ⟨isMutable, entries, succeeded, found⟩
    rcases (answer_success_some_iff serialization data _ _).mp succeeded with ⟨noError, parsed⟩
    have nonempty : data ≠ [] := by
      rcases parsed with ⟨body, same, full, _⟩
      cases same
      exact fun empty => full (Or.inl empty)
    have accepted := (validationError_eq_none_iff hasURL nonempty).mp noError
    exact ⟨status.mp accepted.2, (type nonempty).mp accepted.1, isMutable, entries, parsed, found⟩
  · rintro ⟨statusAccepted, typeAccepted, isMutable, entries, parsed, found⟩
    have nonempty : data ≠ [] := by
      rcases parsed with ⟨body, same, full, _⟩
      cases same
      exact fun empty => full (Or.inl empty)
    have noError := (validationError_eq_none_iff hasURL nonempty).mpr
      ⟨(type nonempty).mpr typeAccepted, status.mpr statusAccepted⟩
    exact ⟨isMutable, entries, (answer_success_some_iff serialization data _ _).mpr ⟨noError, parsed⟩,
      found⟩

/-- A page of status 200 with a result. -/
theorem lumi_result_of_page :
    LumiRequest.postWithURL
        (fun isMutable _ => .ok (.dictionary isMutable [("result", .dictionary isMutable [])]))
        (exchange lumiSerializer (some ⟨some "text/html", 200, true⟩) (some [123, 125])) =
      .ok [⟨some (.dictionary false []), none⟩] := by
  rw [lumi_result_iff _ rfl]
  exact ⟨⟨by decide, by decide⟩, ⟨"text/html", rfl, by decide⟩, false, _,
    ⟨_, rfl, by decide, rfl⟩, rfl⟩

/-! ## Errors -/

/-- The parser takes the validation error out of the chain: the body is of an
acceptable type, and its own error already has another under it. -/
def ParserHides (serializer : AFHTTPResponseSerializer) (serialization : JSONSerialization)
    (response : NSHTTPURLResponse) (data : Option NSData) : Prop :=
  Exists fun body => Exists fun domain => Exists fun code => Exists fun underlying =>
    data = some body ∧ ¬ IsBlank body ∧ serializer.rejectsType response (some body) = false ∧
      serialization false body = .error (.over domain code underlying) ∧
      errorOrUnderlyingErrorHasCodeInDomain badServerResponse responseSerializationErrorDomain
        (.over domain code underlying) = false

/-- Whether an error or one under it reports a bad response. -/
def reportsBadResponse (error : NSError) : Bool :=
  errorOrUnderlyingErrorHasCodeInDomain badServerResponse responseSerializationErrorDomain error

/-- What validation stores for a rejected status: the status alone, or over
a rejected type if there is data. -/
theorem validationError_of_rejected {serializer : AFHTTPResponseSerializer}
    {response : NSHTTPURLResponse} (rejected : serializer.rejectsStatus response = true)
    (data : Option NSData) :
    (serializer.validateResponse (some response) data).2 =
      if serializer.rejectsType response data && decide (0 < (data.getD []).length) &&
          response.hasURL then
        some (.over responseSerializationErrorDomain badServerResponse
          (.plain responseSerializationErrorDomain cannotDecodeContentData))
      else some (.plain responseSerializationErrorDomain badServerResponse) := by
  simp only [AFHTTPResponseSerializer.validateResponse, rejected, if_true]
  split <;> rfl

/-- The status alone leaves the body to the parser, whose error covers it
only with another error under its own. -/
theorem answer_of_statusError (serialization : JSONSerialization) (data : Option NSData) :
    Exists fun error =>
      answer serialization (.completed data
          (some (.plain responseSerializationErrorDomain badServerResponse))) = .failure error ∧
        (reportsBadResponse error = true ↔
          ¬ Exists fun body => Exists fun domain => Exists fun code => Exists fun underlying =>
            data = some body ∧ ¬ IsBlank body ∧
              serialization false body = .error (.over domain code underlying) ∧
              reportsBadResponse (.over domain code underlying) = false) := by
  have decodable : (some (NSError.plain responseSerializationErrorDomain badServerResponse)).any
      (errorOrUnderlyingErrorHasCodeInDomain cannotDecodeContentData
        responseSerializationErrorDomain) = false := by
    decide
  have reported : reportsBadResponse (.plain responseSerializationErrorDomain badServerResponse) = true := by
    decide
  simp only [answer, AFNetworking.responseObjectForResponse, decodable, Bool.false_eq_true, if_false]
  cases data with
  | none =>
      refine ⟨_, rfl, iff_of_true reported ?_⟩
      rintro ⟨_, _, _, _, same, _⟩
      cases same
  | some body =>
      by_cases blank : IsBlank body
      · refine ⟨.plain responseSerializationErrorDomain badServerResponse, ?_, iff_of_true reported ?_⟩
        · simp only [if_pos blank]
        · rintro ⟨_, _, _, _, same, full, _⟩
          cases same
          exact full blank
      · simp only [if_neg blank]
        cases parsed : serialization false body with
        | ok responseObject =>
            refine ⟨_, rfl, iff_of_true reported ?_⟩
            rintro ⟨_, _, _, _, same, _, other, _⟩
            cases same
            rw [parsed] at other
            cases other
        | error serializationError =>
            cases serializationError with
            | plain domain code =>
                refine ⟨_, rfl, iff_of_true ?_ ?_⟩
                · simp [reportsBadResponse, errorOrUnderlyingErrorHasCodeInDomain]
                · rintro ⟨_, _, _, _, same, _, other, _⟩
                  cases same
                  rw [parsed] at other
                  cases other
            | «over» domain code underlying =>
                refine ⟨_, rfl, ?_⟩
                rw [← Bool.not_eq_false]
                apply not_congr
                constructor
                · intro absent
                  exact ⟨body, domain, code, underlying, rfl, blank, parsed, absent⟩
                · rintro ⟨_, _, _, _, same, _, other, absent⟩
                  cases same
                  rw [parsed] at other
                  cases other
                  exact absent

/-- A rejected status always leads to a failure, and it can be found in the
error or under it unless the parser has an error with another under it. -/
theorem rejected_status_reported_iff (serializer : AFHTTPResponseSerializer)
    (serialization : JSONSerialization) {response : NSHTTPURLResponse}
    (rejected : serializer.rejectsStatus response = true) (data : Option NSData) :
    Exists fun error =>
      answer serialization (exchange serializer (some response) data) = .failure error ∧
        (errorOrUnderlyingErrorHasCodeInDomain badServerResponse responseSerializationErrorDomain
            error = true ↔
          ¬ ParserHides serializer serialization response data) := by
  have hasURL : response.hasURL = true := by
    unfold AFHTTPResponseSerializer.rejectsStatus at rejected
    split at rejected
    · cases rejected
    · exact (Bool.and_eq_true_iff.mp rejected).2
  rw [exchange, validationError_of_rejected rejected]
  cases typeError : serializer.rejectsType response data &&
      decide (0 < (data.getD []).length) && response.hasURL with
  | true =>
      rw [if_pos rfl]
      have reported : reportsBadResponse (.over responseSerializationErrorDomain badServerResponse
          (.plain responseSerializationErrorDomain cannotDecodeContentData)) = true := by
        decide
      refine ⟨_, rfl, iff_of_true reported ?_⟩
      rintro ⟨body, _, _, _, rfl, _, accepted, _⟩
      rw [accepted] at typeError
      cases typeError
  | false =>
      rw [if_neg Bool.false_ne_true]
      rcases answer_of_statusError serialization data with ⟨error, failed, reportedIff⟩
      refine ⟨error, failed, reportedIff.trans (not_congr ?_)⟩
      constructor
      · rintro ⟨body, domain, code, underlying, rfl, full, parsed, absent⟩
        have acceptedType : serializer.rejectsType response (some body) = false := by
          have positive : 0 < body.length := List.length_pos_iff.mpr fun empty => full (Or.inl empty)
          simpa [hasURL, positive] using typeError
        exact ⟨body, domain, code, underlying, rfl, full, acceptedType, parsed, absent⟩
      · rintro ⟨body, domain, code, underlying, same, full, _, parsed, absent⟩
        exact ⟨body, domain, code, underlying, same, full, parsed, absent⟩

/-- A page of status 500 that cannot be parsed. -/
theorem rejected_status_reported_of_page :
    Exists fun error =>
      answer (fun _ _ => .error (.plain "NSCocoaErrorDomain" 3840))
          (exchange lumiSerializer (some ⟨some "text/html", 500, true⟩) (some [60])) = .failure error ∧
        (errorOrUnderlyingErrorHasCodeInDomain badServerResponse responseSerializationErrorDomain
            error = true ↔
          ¬ ParserHides lumiSerializer (fun _ _ => .error (.plain "NSCocoaErrorDomain" 3840))
            ⟨some "text/html", 500, true⟩ (some [60])) :=
  rejected_status_reported_iff lumiSerializer _ (by decide) _

end AFNetworking
end Network
end HowBigDemo
