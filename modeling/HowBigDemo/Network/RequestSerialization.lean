import HowBigDemo.Network.MultipartStream

namespace HowBigDemo
namespace Network
namespace AFNetworking

open Library

/-!
# Parameters in the URL or in the body

`requestBySerializingRequest:withParameters:error:` of the serializer that
`LumiRequest` uses.  Its own header values are defaults, and the query string
goes into the URL for GET, HEAD and DELETE and into the body otherwise.  The
query is appended to the whole URL text, so it is the query of the new URL
only if the URL has no fragment.
-/

/-- The parts of a request that the serializer reads and sets. -/
structure NSMutableURLRequest where
  url : NSString
  httpMethod : NSString
  httpHeaders : List (NSString × NSString)
  httpBody : Option NSData
  httpBodyStream : Option AFMultipartBodyStream
  deriving DecidableEq

def lowercase (unit : CodeUnit) : CodeUnit :=
  if 65 ≤ unit.toNat ∧ unit.toNat ≤ 90 then unit + 32 else unit

def uppercase (unit : CodeUnit) : CodeUnit :=
  if 97 ≤ unit.toNat ∧ unit.toNat ≤ 122 then unit - 32 else unit

/-- Header fields are compared without regard to case. -/
def sameField (first second : NSString) : Bool :=
  first.map lowercase == second.map lowercase

namespace NSMutableURLRequest

def valueForHTTPHeaderField (request : NSMutableURLRequest) (field : NSString) :
    Option NSString :=
  (request.httpHeaders.find? fun header => sameField header.1 field).map Prod.snd

def setValueForHTTPHeaderField (request : NSMutableURLRequest) (value field : NSString) :
    NSMutableURLRequest :=
  { request with
    httpHeaders := request.httpHeaders.filter (fun header => !sameField header.1 field) ++
      [(field, value)] }

end NSMutableURLRequest

def numberSign : CodeUnit := 35
def questionMark : CodeUnit := 63

/-- `query` of a URL: what stands behind the first `?` before the fragment. -/
def urlQuery (url : NSString) : Option NSString :=
  match (url.takeWhile (· != numberSign)).dropWhile (· != questionMark) with
  | [] => none
  | _ :: query => some query

/-- The methods in `HTTPMethodsEncodingParametersInURI`. -/
def encodesParametersInURI (httpMethod : NSString) : Bool :=
  [text "GET", text "HEAD", text "DELETE"].contains (httpMethod.map uppercase)

/-- `[[mutableRequest.URL absoluteString] stringByAppendingFormat:…, query]`. -/
def appendQuery (url query : NSString) : NSString :=
  url ++ (if (urlQuery url).isSome then ampersand else questionMark) :: query

section Serializing

variable (descriptions : Descriptions) (boundaries : NSString -> Nat -> Bool)

/-- A header value of the serializer, unless the request has its own. -/
def addHeader (request mutableRequest : NSMutableURLRequest) (header : NSString × NSString) :
    NSMutableURLRequest :=
  if (request.valueForHTTPHeaderField header.1).isNone then
    mutableRequest.setValueForHTTPHeaderField header.2 header.1
  else mutableRequest

def withHeaders (request : NSMutableURLRequest) (serializerHeaders : List (NSString × NSString)) :
    NSMutableURLRequest :=
  serializerHeaders.foldl (addHeader request) request

/-- The request with its parameters, given their query string. -/
def withQuery (request : NSMutableURLRequest) (query : Option NSString) : NSMutableURLRequest :=
  if encodesParametersInURI request.httpMethod then
    match query with
    | none => request
    | some query =>
      if 0 < query.length then { request with url := appendQuery request.url query } else request
  else
    let mutableRequest :=
      if (request.valueForHTTPHeaderField (text "Content-Type")).isNone then
        request.setValueForHTTPHeaderField (text "application/x-www-form-urlencoded")
          (text "Content-Type")
      else request
    { mutableRequest with httpBody := dataUsingEncoding (query.getD []) }

/-- `requestBySerializingRequest:withParameters:error:` in the default style.
Nothing is returned where a parameter cannot be escaped and an exception is
raised. -/
def requestBySerializingRequest (serializerHeaders : List (NSString × NSString))
    (request : NSMutableURLRequest) (parameters : Option (List (NSString × Parameter))) :
    Option NSMutableURLRequest :=
  let mutableRequest := withHeaders request serializerHeaders
  match parameters with
  | none => some (withQuery mutableRequest none)
  | some parameters =>
    (queryStringFromParameters descriptions boundaries parameters).map fun query =>
      withQuery mutableRequest (some query)

/-- `requestWithMethod:URLString:parameters:error:` for a valid URL, with no
property of the serializer changed. -/
def requestWithMethod (serializerHeaders : List (NSString × NSString)) (method url : NSString)
    (parameters : Option (List (NSString × Parameter))) : Option NSMutableURLRequest :=
  requestBySerializingRequest descriptions boundaries serializerHeaders ⟨url, method, [], none, none⟩
    parameters

end Serializing

/-! ## The query of the new URL -/

theorem dropWhile_append_of_notMem {Item : Type} [DecidableEq Item] {separator : Item}
    {before : List Item} (absent : separator ∉ before) (behind : List Item) :
    (before ++ behind).dropWhile (· != separator) = behind.dropWhile (· != separator) := by
  apply List.dropWhile_append_of_pos
  intro item listed
  exact bne_iff_ne.mpr fun same => absent (same ▸ listed)

theorem takeWhile_append_of_notMem {Item : Type} [DecidableEq Item] {separator : Item}
    {before : List Item} (absent : separator ∉ before) (behind : List Item) :
    (before ++ behind).takeWhile (· != separator) = before ++ behind.takeWhile (· != separator) := by
  apply List.takeWhile_append_of_pos
  intro item listed
  exact bne_iff_ne.mpr fun same => absent (same ▸ listed)

theorem takeWhile_of_notMem {Item : Type} [DecidableEq Item] {separator : Item}
    {items : List Item} (absent : separator ∉ items) :
    items.takeWhile (· != separator) = items := by
  have whole := takeWhile_append_of_notMem absent []
  rwa [List.append_nil, List.takeWhile_nil, List.append_nil] at whole

/-- Without a fragment, the query of the new URL is the old one, if any, with
the parameters behind it. -/
theorem urlQuery_appendQuery {url query : NSString} (noFragment : numberSign ∉ url)
    (plain : numberSign ∉ query) :
    urlQuery (appendQuery url query) =
      some (match urlQuery url with
        | none => query
        | some before => before ++ ampersand :: query) := by
  have whole : forall separator : CodeUnit, separator ≠ numberSign ->
      numberSign ∉ url ++ separator :: query := by
    intro separator differs listed
    rcases List.mem_append.mp listed with inURL | later
    · exact noFragment inURL
    · rcases List.mem_cons.mp later with same | inQuery
      · exact differs same.symm
      · exact plain inQuery
  have ofURL : urlQuery url = match url.dropWhile (· != questionMark) with
      | [] => none
      | _ :: before => some before := by
    rw [urlQuery, takeWhile_of_notMem noFragment]
  by_cases asked : questionMark ∈ url
  · rcases List.eq_append_cons_of_mem asked with ⟨front, before, same, notBefore⟩
    have queryHere : urlQuery url = some before := by
      rw [ofURL, same, dropWhile_append_of_notMem notBefore]
      rfl
    have separator : (if (urlQuery url).isSome then ampersand else questionMark) = ampersand := by
      rw [queryHere]
      rfl
    rw [appendQuery, separator, queryHere, urlQuery, takeWhile_of_notMem (whole ampersand (by decide)),
      same, List.append_assoc, dropWhile_append_of_notMem notBefore]
    rfl
  · have noQuery : urlQuery url = none := by
      have ended := dropWhile_append_of_notMem asked []
      rw [List.append_nil] at ended
      rw [ofURL, ended]
      rfl
    have separator : (if (urlQuery url).isSome then ampersand else questionMark) = questionMark := by
      rw [noQuery]
      rfl
    rw [appendQuery, separator, noQuery, urlQuery,
      takeWhile_of_notMem (whole questionMark (by decide)), dropWhile_append_of_notMem asked]
    rfl

/-- A query behind another is read behind it. -/
theorem readQuery_append (before query : NSString) :
    readQuery (before ++ ampersand :: query) =
      (readQuery before).bind fun pairs => (readQuery query).map (pairs ++ ·) := by
  rw [readQuery, readQuery, readQuery, List.splitOn_append_cons_self, List.mapM_append]
  cases (before.splitOn ampersand).mapM readPair with
  | none => rfl
  | some pairs => cases (query.splitOn ampersand).mapM readPair <;> rfl

/-- In front of a fragment nothing changes. -/
theorem urlQuery_appendQuery_of_fragment {url : NSString} (fragment : numberSign ∈ url)
    (query : NSString) : urlQuery (appendQuery url query) = urlQuery url := by
  rcases List.eq_append_cons_of_mem fragment with ⟨front, behind, same, notBefore⟩
  have before : forall later, (url ++ later).takeWhile (· != numberSign) = front := by
    intro later
    rw [same, List.append_assoc, takeWhile_append_of_notMem notBefore]
    exact List.append_nil front
  have alone := before []
  rw [List.append_nil] at alone
  rw [urlQuery, urlQuery, appendQuery, before, alone]

theorem withHeaders_frame (request : NSMutableURLRequest)
    (serializerHeaders : List (NSString × NSString)) :
    (withHeaders request serializerHeaders).url = request.url ∧
      (withHeaders request serializerHeaders).httpMethod = request.httpMethod := by
  have folded : forall mutableRequest : NSMutableURLRequest,
      (serializerHeaders.foldl (addHeader request) mutableRequest).url = mutableRequest.url ∧
        (serializerHeaders.foldl (addHeader request) mutableRequest).httpMethod =
          mutableRequest.httpMethod := by
    induction serializerHeaders with
    | nil => exact fun _ => ⟨rfl, rfl⟩
    | cons header rest inductionHypothesis =>
        intro mutableRequest
        have here : (addHeader request mutableRequest header).url = mutableRequest.url ∧
            (addHeader request mutableRequest header).httpMethod = mutableRequest.httpMethod := by
          unfold addHeader
          split <;> exact ⟨rfl, rfl⟩
        have later := inductionHypothesis (addHeader request mutableRequest header)
        exact ⟨later.1.trans here.1, later.2.trans here.2⟩
  exact folded request

section RoundTrip

variable {descriptions : Descriptions} {boundaries : NSString -> Nat -> Bool}

theorem numberSign_notMem_query (ends : forall string, EndsCharacters string (boundaries string))
    {parameters : List (NSString × Parameter)} {query : NSString}
    (result : queryStringFromParameters descriptions boundaries parameters = some query) :
    numberSign ∉ query := by
  intro listed
  rcases mem_queryStringFromParameters ends result listed with isAmpersand | isWritten
  · exact absurd isAmpersand (by decide)
  · exact absurd isWritten (by decide)

/-- A server that reads the query of a GET request finds the pairs of the
given URL and behind them those of the parameters, if the URL has no
fragment.  Behind a fragment it does not find the parameters at all. -/
theorem readQuery_of_serialized (ends : forall string, EndsCharacters string (boundaries string))
    {serializerHeaders : List (NSString × NSString)} {request serialized : NSMutableURLRequest}
    {parameters : List (NSString × Parameter)} {query : NSString}
    (inURI : encodesParametersInURI request.httpMethod = true)
    (hasPairs : pairsFromDictionary descriptions parameters ≠ [])
    (written : queryStringFromParameters descriptions boundaries parameters = some query)
    (nonempty : query ≠ [])
    (result : requestBySerializingRequest descriptions boundaries serializerHeaders request
      (some parameters) = some serialized) :
    (numberSign ∉ request.url ->
      (urlQuery serialized.url).bind readQuery =
        (match urlQuery request.url with
          | none => some []
          | some before => readQuery before).map
            (· ++ (pairsFromDictionary descriptions parameters).map (readAs descriptions))) ∧
      (numberSign ∈ request.url -> urlQuery serialized.url = urlQuery request.url) := by
  have url : serialized.url = appendQuery request.url query := by
    unfold requestBySerializingRequest at result
    rcases Option.map_eq_some_iff.mp result with ⟨sameQuery, found, rfl⟩
    rw [written] at found
    cases found
    have frame := withHeaders_frame request serializerHeaders
    unfold withQuery
    rw [frame.2, if_pos inURI]
    change (if 0 < query.length then _ else _ : NSMutableURLRequest).url = _
    rw [if_pos (List.length_pos_iff.mpr nonempty), frame.1]
  have reads := readQuery_queryStringFromParameters ends hasPairs written
  rw [url]
  constructor
  · intro noFragment
    rw [urlQuery_appendQuery noFragment (numberSign_notMem_query ends written), Option.bind_some]
    cases urlQuery request.url with
    | none =>
        change readQuery query = (some []).map _
        rw [reads]
        rfl
    | some before =>
        change readQuery (before ++ ampersand :: query) = (readQuery before).map _
        rw [readQuery_append, reads]
        cases readQuery before <;> rfl
  · exact fun fragment => urlQuery_appendQuery_of_fragment fragment query

end RoundTrip

/-- A URL that has a query already. -/
def searchURL : NSString := text "http://localhost/search?page=2"

theorem readQuery_of_search :
    Exists fun serialized =>
      requestBySerializingRequest fewDescriptions pairBoundary [] ⟨searchURL, text "get", [], none, none⟩
          (some tagParameters) = some serialized ∧
        (urlQuery serialized.url).bind readQuery =
          some [⟨text "page", some (text "2")⟩, ⟨text "tags[]", some (text "a&b")⟩,
            ⟨text "tags[]", none⟩] := by
  have written := queryStringFromParameters_tagParameters
  have pairs : pairsFromDictionary fewDescriptions tagParameters =
      [⟨some (text "tags[]"), .string (text "a&b")⟩, ⟨some (text "tags[]"), .null⟩] := by
    rw [pairsFromDictionary, pairsFromKeyAndValue_eq_leaves, leaves_tagParameters]
    rfl
  have result : requestBySerializingRequest fewDescriptions pairBoundary []
      ⟨searchURL, text "get", [], none, none⟩ (some tagParameters) = some _ :=
    congrArg (Option.map _) written
  refine ⟨_, result, ?_⟩
  have reads := (readQuery_of_serialized endsCharacters_pairBoundary
    (show encodesParametersInURI (text "get") = true by decide)
    (by rw [pairs]; exact List.cons_ne_nil _ _) written (by decide) result).1 (by decide)
  rw [pairs] at reads
  exact reads.trans (by decide +kernel)

end AFNetworking
end Network
end HowBigDemo
