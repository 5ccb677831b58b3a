import HowBigDemo.Network.JSONObject

namespace HowBigDemo
namespace Network

/-!
# The three request methods and their handlers

`DefaultRequest requestURL:block:` sends through `NSURLConnection` and
parses the body itself.  `LumiRequest` posts and gets through
`AFHTTPSessionManager`, whose JSON serializer decides between a success and
a failure call.  Each method takes a handler for a result and an error.

A transport outcome is what the network delivers: a failed connection, or a
completed exchange with or without data and with the error, if any, that
AFNetworking's validation finds in the response.  The parser of
`NSJSONSerialization` is a parameter.  The theorems say for which outcomes a
method calls its handler once with either a result or an error.
-/

abbrev NSData := List UInt8

/-- An error, possibly wrapping an underlying one. -/
inductive NSError
  | plain (domain : String) (code : Int)
  | over (domain : String) (code : Int) (underlying : NSError)
  deriving DecidableEq

/-- An Objective-C exception, here an unrecognized selector. -/
inductive NSException
  | unrecognizedSelector
  deriving DecidableEq

/-- What the network delivers for a request. -/
inductive Transport
  | failed (error : NSError)
  | completed (data : Option NSData) (validationError : Option NSError)
  deriving DecidableEq

/-- `JSONObjectWithData:options:error:`, given whether containers are mutable. -/
abbrev JSONSerialization := Bool -> NSData -> Except NSError JSONObject

/-- One call of a handler with its result and error arguments. -/
structure HandlerCall where
  result : Option JSONObject
  error : Option NSError

/-- The calls of the handler, or the exception raised instead. -/
abbrev Handled := Except NSException (List HandlerCall)

/-- A body that the parsers do not look at: empty, or a single space.  For the
space `DefaultRequest` compares with the first byte of the string object
`@" "`; to the parser a body of one byte is no container in any case. -/
def IsBlank (data : NSData) : Prop :=
  data = [] ∨ data = [32]

instance (data : NSData) : Decidable (IsBlank data) :=
  inferInstanceAs (Decidable (_ ∨ _))

namespace DefaultRequest

/-- `responseObjectForResponse:data:error:`.  It reports no error. -/
def responseObjectForResponse (serialization : JSONSerialization) (data : NSData) :
    Option JSONObject :=
  if IsBlank data then none
  else
    match serialization true data with
    | .error _ => none
    | .ok responseObject => some (responseObject.removingKeysWithNullValues true)

/-- `requestURL:block:` with a non-nil block, from the completion of the
connection on.  The connection does not validate responses. -/
def requestURL (serialization : JSONSerialization) : Transport -> Handled
  | .failed _ => .ok []
  | .completed none _ => .ok []
  | .completed (some data) _ => .ok [⟨responseObjectForResponse serialization data, none⟩]

end DefaultRequest

/-! ## The serializer of AFNetworking -/

namespace AFNetworking

def responseSerializationErrorDomain : String :=
  "com.alamofire.error.serialization.response"

/-- `NSURLErrorCannotDecodeContentData`. -/
def cannotDecodeContentData : Int := -1016

/-- `AFErrorOrUnderlyingErrorHasCodeInDomain`. -/
def errorOrUnderlyingErrorHasCodeInDomain (code : Int) (domain : String) : NSError -> Bool
  | .plain domain' code' => domain' == domain && code' == code
  | .over domain' code' underlying =>
      (domain' == domain && code' == code) ||
        errorOrUnderlyingErrorHasCodeInDomain code domain underlying

/-- `AFErrorWithUnderlyingError`. -/
def errorWithUnderlyingError : Option NSError -> Option NSError -> Option NSError
  | none, underlying => underlying
  | some error, none => some error
  | some (.over domain code wrapped), some _ => some (.over domain code wrapped)
  | some (.plain domain code), some underlying => some (.over domain code underlying)

/-- `AFJSONResponseSerializer responseObjectForResponse:data:error:`, with
the error that validation has stored. -/
def responseObjectForResponse (serialization : JSONSerialization)
    (data : Option NSData) (validationError : Option NSError) :
    Option JSONObject × Option NSError :=
  if validationError.any (errorOrUnderlyingErrorHasCodeInDomain cannotDecodeContentData
      responseSerializationErrorDomain) then (none, validationError)
  else
    match data with
    | none => (none, validationError)
    | some data =>
      if IsBlank data then (none, validationError)
      else
        match serialization false data with
        | .ok responseObject => (some responseObject, errorWithUnderlyingError none validationError)
        | .error serializationError =>
          (none, errorWithUnderlyingError (some serializationError) validationError)

/-- Which of the two blocks the session manager calls. -/
inductive Answer
  | success (responseObject : Option JSONObject)
  | failure (error : NSError)

/-- The completion of a data task. -/
def answer (serialization : JSONSerialization) : Transport -> Answer
  | .failed error => .failure error
  | .completed data validationError =>
    match responseObjectForResponse serialization data validationError with
    | (_, some error) => .failure error
    | (responseObject, none) => .success responseObject

end AFNetworking

namespace LumiRequest

/-- The subscript `responseObject[@"result"]`.  Nil answers nil, and only a
dictionary has the method. -/
def resultOf : Option JSONObject -> Except NSException (Option JSONObject)
  | none => .ok none
  | some (.dictionary _ entries) => .ok (JSONObject.objectForKey entries "result")
  | some _ => .error .unrecognizedSelector

/-- `postWithURL:parmas:completeHandle:` with a non-nil handler. -/
def postWithURL (serialization : JSONSerialization) (transport : Transport) : Handled :=
  match AFNetworking.answer serialization transport with
  | .success responseObject =>
    match resultOf responseObject with
    | .ok response => .ok [⟨response, none⟩]
    | .error exception => .error exception
  | .failure error => .ok [⟨none, some error⟩]

/-- `getWithURL:parmas:completeHandle:` with a non-nil handler. -/
def getWithURL (serialization : JSONSerialization) (transport : Transport) : Handled :=
  match AFNetworking.answer serialization transport with
  | .success responseObject =>
    match resultOf responseObject with
    | .ok response => .ok [⟨response, none⟩]
    | .error exception => .error exception
  | .failure error => .ok [⟨none, some error⟩]

end LumiRequest

/-! ## The contract of a handler -/

/-- The handler is called exactly once, with exactly one of a result and an
error, and the result satisfies the given test. -/
def AnsweredOnce (acceptable : JSONObject -> Bool) (handled : Handled) : Prop :=
  (Exists fun result => handled = .ok [⟨some result, none⟩] ∧ acceptable result = true) ∨
    (Exists fun error => handled = .ok [⟨none, some error⟩])

/-- The body is there, is not blank and can be parsed. -/
def Parsed (serialization : JSONSerialization) (mutableContainers : Bool)
    (data : Option NSData) (responseObject : JSONObject) : Prop :=
  Exists fun body => data = some body ∧ ¬ IsBlank body ∧
    serialization mutableContainers body = .ok responseObject

/-- `DefaultRequest` keeps its contract for completed exchanges with a
parsed body. -/
def DefaultAnswers (serialization : JSONSerialization) (transport : Transport) : Prop :=
  Exists fun data => Exists fun validationError => Exists fun responseObject =>
    transport = .completed data validationError ∧ Parsed serialization true data responseObject

/-- `LumiRequest` keeps its contract for failed connections, rejected
responses, bodies that cannot be parsed, and dictionaries whose `result` is
a dictionary. -/
def LumiAnswers (serialization : JSONSerialization) : Transport -> Prop
  | .failed _ => True
  | .completed data validationError =>
      validationError ≠ none ∨
      (Exists fun body => Exists fun error => data = some body ∧ ¬ IsBlank body ∧
        serialization false body = .error error) ∨
      (Exists fun isMutable => Exists fun entries => Exists fun result =>
        Parsed serialization false data (.dictionary isMutable entries) ∧
        JSONObject.objectForKey entries "result" = some result ∧ result.isDictionary = true)

theorem not_answeredOnce_nil (acceptable : JSONObject -> Bool) :
    ¬ AnsweredOnce acceptable (.ok []) := by
  rintro (⟨result, impossible, _⟩ | ⟨error, impossible⟩) <;> cases impossible

theorem not_answeredOnce_error (acceptable : JSONObject -> Bool) (exception : NSException) :
    ¬ AnsweredOnce acceptable (.error exception) := by
  rintro (⟨result, impossible, _⟩ | ⟨error, impossible⟩) <;> cases impossible

theorem answeredOnce_failure (acceptable : JSONObject -> Bool) (error : NSError) :
    AnsweredOnce acceptable (.ok [⟨none, some error⟩]) :=
  Or.inr ⟨error, rfl⟩

theorem answeredOnce_result_iff (acceptable : JSONObject -> Bool) (response : Option JSONObject) :
    AnsweredOnce acceptable (.ok [⟨response, none⟩]) ↔
      Exists fun result => response = some result ∧ acceptable result = true := by
  constructor
  · rintro (⟨result, same, good⟩ | ⟨error, impossible⟩)
    · cases same
      exact ⟨result, rfl, good⟩
    · cases impossible
  · rintro ⟨result, rfl, good⟩
    exact Or.inl ⟨result, rfl, good⟩

namespace DefaultRequest

/-- The parser of `DefaultRequest` has a result exactly for a parsed body. -/
theorem responseObjectForResponse_isSome_iff (serialization : JSONSerialization)
    (data : NSData) :
    (Exists fun result => responseObjectForResponse serialization data = some result) ↔
      Exists fun responseObject => Parsed serialization true (some data) responseObject := by
  unfold responseObjectForResponse
  constructor
  · rintro ⟨result, found⟩
    by_cases blank : IsBlank data
    · rw [if_pos blank] at found
      cases found
    · rw [if_neg blank] at found
      cases parsed : serialization true data with
      | error error =>
          rw [parsed] at found
          cases found
      | ok responseObject => exact ⟨responseObject, data, rfl, blank, parsed⟩
  · rintro ⟨responseObject, body, same, full, parsed⟩
    cases same
    rw [if_neg full, parsed]
    exact ⟨_, rfl⟩

theorem requestURL_answeredOnce_iff (serialization : JSONSerialization) (transport : Transport) :
    AnsweredOnce (fun _ => true) (requestURL serialization transport) ↔
      DefaultAnswers serialization transport := by
  cases transport with
  | failed error =>
      constructor
      · intro answered
        exact absurd answered (not_answeredOnce_nil _)
      · rintro ⟨_, _, _, impossible, _⟩
        cases impossible
  | completed data validationError =>
      cases data with
      | none =>
          constructor
          · intro answered
            exact absurd answered (not_answeredOnce_nil _)
          · rintro ⟨_, _, _, same, _, impossible, _⟩
            cases same
            cases impossible
      | some data =>
          change AnsweredOnce _ (.ok [⟨responseObjectForResponse serialization data, none⟩]) ↔ _
          rw [answeredOnce_result_iff]
          constructor
          · rintro ⟨result, found, _⟩
            rcases (responseObjectForResponse_isSome_iff serialization data).mp ⟨result, found⟩
              with ⟨responseObject, parsed⟩
            exact ⟨some data, validationError, responseObject, rfl, parsed⟩
          · rintro ⟨_, _, responseObject, same, parsed⟩
            cases same
            rcases (responseObjectForResponse_isSome_iff serialization data).mpr
              ⟨responseObject, parsed⟩ with ⟨result, found⟩
            exact ⟨result, found, rfl⟩

end DefaultRequest

namespace AFNetworking

/-- An error never disappears under another one. -/
theorem errorWithUnderlyingError_some (error : NSError) (underlying : Option NSError) :
    Exists fun reported => errorWithUnderlyingError (some error) underlying = some reported := by
  cases underlying with
  | none => exact ⟨error, rfl⟩
  | some underlying => cases error <;> exact ⟨_, rfl⟩

/-- The error that validation stored is reported, alone or under another. -/
theorem responseObjectForResponse_of_validationError (serialization : JSONSerialization)
    (data : Option NSData) (validationError : NSError) :
    Exists fun error =>
      (responseObjectForResponse serialization data (some validationError)).2 = some error := by
  unfold responseObjectForResponse
  by_cases stops : (some validationError).any (errorOrUnderlyingErrorHasCodeInDomain
      cannotDecodeContentData responseSerializationErrorDomain) = true
  · rw [if_pos stops]
    exact ⟨validationError, rfl⟩
  rw [if_neg stops]
  cases data with
  | none => exact ⟨validationError, rfl⟩
  | some data =>
      by_cases blank : IsBlank data
      · simp only [if_pos blank]
        exact ⟨validationError, rfl⟩
      simp only [if_neg blank]
      cases serialization false data with
      | ok responseObject => exact ⟨validationError, rfl⟩
      | error serializationError =>
          exact errorWithUnderlyingError_some serializationError (some validationError)

/-- A response that failed its validation is never a success. -/
theorem answer_of_validationError (serialization : JSONSerialization) (data : Option NSData)
    (validationError : NSError) :
    Exists fun error =>
      answer serialization (.completed data (some validationError)) = .failure error := by
  rcases responseObjectForResponse_of_validationError serialization data validationError
    with ⟨error, reported⟩
  cases read : responseObjectForResponse serialization data (some validationError) with
  | mk responseObject stored =>
      rw [read] at reported
      cases reported
      exact ⟨error, by simp only [answer, read]⟩

/-- Without data there is nothing to parse, and the success block runs. -/
theorem answer_missing (serialization : JSONSerialization) :
    answer serialization (.completed none none) = .success none := rfl

theorem answer_blank (serialization : JSONSerialization) {data : NSData} (blank : IsBlank data) :
    answer serialization (.completed (some data) none) = .success none := by
  simp only [answer, responseObjectForResponse, Option.any_none, if_pos blank,
    Bool.false_eq_true, if_false]

theorem answer_unparsed {serialization : JSONSerialization} {data : NSData} {error : NSError}
    (full : ¬ IsBlank data) (unparsed : serialization false data = .error error) :
    answer serialization (.completed (some data) none) = .failure error := by
  simp only [answer, responseObjectForResponse, Option.any_none, if_neg full,
    Bool.false_eq_true, if_false, unparsed, errorWithUnderlyingError]

theorem answer_parsed {serialization : JSONSerialization} {data : NSData}
    {responseObject : JSONObject} (full : ¬ IsBlank data)
    (parsed : serialization false data = .ok responseObject) :
    answer serialization (.completed (some data) none) = .success (some responseObject) := by
  simp only [answer, responseObjectForResponse, Option.any_none, if_neg full,
    Bool.false_eq_true, if_false, parsed, errorWithUnderlyingError]

end AFNetworking

namespace LumiRequest

/-- The two methods hand their handlers the same arguments. -/
theorem getWithURL_eq_postWithURL (serialization : JSONSerialization) (transport : Transport) :
    getWithURL serialization transport = postWithURL serialization transport := rfl

theorem postWithURL_of_failure {serialization : JSONSerialization} {transport : Transport}
    {error : NSError} (failed : AFNetworking.answer serialization transport = .failure error) :
    AnsweredOnce JSONObject.isDictionary (postWithURL serialization transport) := by
  unfold postWithURL
  rw [failed]
  exact answeredOnce_failure _ error

/-- A success block answers once exactly for a dictionary whose `result` is
a dictionary. -/
theorem postWithURL_of_success {serialization : JSONSerialization} {transport : Transport}
    {responseObject : Option JSONObject}
    (succeeded : AFNetworking.answer serialization transport = .success responseObject) :
    AnsweredOnce JSONObject.isDictionary (postWithURL serialization transport) ↔
      Exists fun isMutable => Exists fun entries => Exists fun result =>
        responseObject = some (.dictionary isMutable entries) ∧
        JSONObject.objectForKey entries "result" = some result ∧ result.isDictionary = true := by
  unfold postWithURL
  rw [succeeded]
  constructor
  · intro answered
    cases read : resultOf responseObject with
    | error exception =>
        simp only [read] at answered
        exact absurd answered (not_answeredOnce_error _ exception)
    | ok response =>
        simp only [read] at answered
        rcases (answeredOnce_result_iff _ _).mp answered with ⟨result, rfl, good⟩
        unfold resultOf at read
        split at read
        · cases read
        · next isMutable entries =>
            exact ⟨isMutable, entries, result, rfl, Except.ok.inj read, good⟩
        · cases read
  · rintro ⟨isMutable, entries, result, rfl, found, good⟩
    simp only [resultOf, found]
    exact (answeredOnce_result_iff _ _).mpr ⟨result, rfl, good⟩

/-- A success block without an object hands on neither a result nor an error. -/
theorem not_answeredOnce_of_success_none {serialization : JSONSerialization}
    {transport : Transport}
    (succeeded : AFNetworking.answer serialization transport = .success none) :
    ¬ AnsweredOnce JSONObject.isDictionary (postWithURL serialization transport) := by
  rw [postWithURL_of_success succeeded]
  rintro ⟨_, _, _, impossible, _⟩
  cases impossible

/-- A body that nobody parses gives no answer. -/
theorem not_lumiAnswers_of_blank {serialization : JSONSerialization} {data : Option NSData}
    (blank : forall body, data = some body -> IsBlank body) :
    ¬ LumiAnswers serialization (.completed data none) := by
  rintro (impossible | ⟨body, _, same, full, _⟩ | ⟨_, _, _, ⟨body, same, full, _⟩, _⟩)
  · exact impossible rfl
  · exact full (blank body same)
  · exact full (blank body same)

/-- A parsed body gives an answer exactly if it is a dictionary whose
`result` is a dictionary. -/
theorem lumiAnswers_parsed_iff {serialization : JSONSerialization} {data : NSData}
    {responseObject : JSONObject} (full : ¬ IsBlank data)
    (parsed : serialization false data = .ok responseObject) :
    LumiAnswers serialization (.completed (some data) none) ↔
      Exists fun isMutable => Exists fun entries => Exists fun result =>
        some responseObject = some (.dictionary isMutable entries) ∧
        JSONObject.objectForKey entries "result" = some result ∧ result.isDictionary = true := by
  constructor
  · rintro (impossible | ⟨body, error, same, _, unparsed⟩ |
      ⟨isMutable, entries, result, ⟨body, same, _, other⟩, found, good⟩)
    · exact absurd rfl impossible
    · cases same
      rw [parsed] at unparsed
      cases unparsed
    · cases same
      rw [parsed] at other
      cases other
      exact ⟨isMutable, entries, result, rfl, found, good⟩
  · rintro ⟨isMutable, entries, result, same, found, good⟩
    cases same
    exact Or.inr (Or.inr ⟨isMutable, entries, result, ⟨data, rfl, full, parsed⟩, found, good⟩)

theorem postWithURL_answeredOnce_iff (serialization : JSONSerialization) (transport : Transport) :
    AnsweredOnce JSONObject.isDictionary (postWithURL serialization transport) ↔
      LumiAnswers serialization transport := by
  cases transport with
  | failed error =>
      have failed : AFNetworking.answer serialization (.failed error) = .failure error := rfl
      exact iff_of_true (postWithURL_of_failure failed) trivial
  | completed data validationError =>
      cases validationError with
      | some validationError =>
          rcases AFNetworking.answer_of_validationError serialization data validationError
            with ⟨error, failed⟩
          exact iff_of_true (postWithURL_of_failure failed)
            (Or.inl (Option.some_ne_none validationError))
      | none =>
          cases data with
          | none =>
              apply iff_of_false
              · exact not_answeredOnce_of_success_none (AFNetworking.answer_missing serialization)
              · apply not_lumiAnswers_of_blank
                intro body impossible
                cases impossible
          | some data =>
              by_cases blank : IsBlank data
              · apply iff_of_false
                · exact not_answeredOnce_of_success_none
                    (AFNetworking.answer_blank serialization blank)
                · apply not_lumiAnswers_of_blank
                  intro body same
                  cases same
                  exact blank
              cases parsed : serialization false data with
              | error error =>
                  exact iff_of_true
                    (postWithURL_of_failure (AFNetworking.answer_unparsed blank parsed))
                    (Or.inr (Or.inl ⟨data, error, rfl, blank, parsed⟩))
              | ok responseObject =>
                  rw [postWithURL_of_success (AFNetworking.answer_parsed blank parsed),
                    lumiAnswers_parsed_iff blank parsed]

end LumiRequest

/-- For every parser and every transport outcome, each method calls its
handler once with either a result or an error exactly under the conditions
above, and the two methods of `LumiRequest` answer alike. -/
theorem handlers_answered_once_iff (serialization : JSONSerialization) (transport : Transport) :
    (AnsweredOnce (fun _ => true) (DefaultRequest.requestURL serialization transport) ↔
      DefaultAnswers serialization transport) ∧
    (AnsweredOnce JSONObject.isDictionary (LumiRequest.postWithURL serialization transport) ↔
      LumiAnswers serialization transport) ∧
    (AnsweredOnce JSONObject.isDictionary (LumiRequest.getWithURL serialization transport) ↔
      LumiAnswers serialization transport) ∧
    LumiRequest.getWithURL serialization transport =
      LumiRequest.postWithURL serialization transport := by
  refine ⟨DefaultRequest.requestURL_answeredOnce_iff serialization transport,
    LumiRequest.postWithURL_answeredOnce_iff serialization transport, ?_,
    LumiRequest.getWithURL_eq_postWithURL serialization transport⟩
  rw [LumiRequest.getWithURL_eq_postWithURL]
  exact LumiRequest.postWithURL_answeredOnce_iff serialization transport

/-- A refused connection, `NSURLErrorCannotConnectToHost`: the handler of
`DefaultRequest` is never called.  A body that parses to an empty array:
`LumiRequest` raises. -/
theorem handlers_silent_or_raising :
    ¬ AnsweredOnce (fun _ => true)
        (DefaultRequest.requestURL (fun isMutable _ => .ok (.array isMutable []))
          (.failed (.plain "NSURLErrorDomain" (-1004)))) ∧
      ¬ AnsweredOnce JSONObject.isDictionary
        (LumiRequest.postWithURL (fun isMutable _ => .ok (.array isMutable []))
          (.completed (some [91, 93]) none)) :=
  ⟨not_answeredOnce_nil _, not_answeredOnce_error _ .unrecognizedSelector⟩

end Network
end HowBigDemo
