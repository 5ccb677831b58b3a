import Mathlib.Data.List.TakeWhile
import HowBigDemo.Library.PercentEncoding
import HowBigDemo.Network.Requests

namespace HowBigDemo
namespace Network
namespace AFNetworking

open Library

/-!
# The query string of a parameter dictionary

`LumiRequest getWithURL:` hands its parameters to the request serializer of
AFNetworking, which flattens the dictionary into pairs of a field and a
value, escapes both and joins them.  Text is escaped in batches of fifty code
units, each extended to whole composed characters.

Foundation supplies where composed characters end, how a container describes
itself and how descriptions compare; these are parameters.  The theorems say
that batches make no difference, that any receiver that splits and decodes
the query reads the pairs back, and that the fields, read at their brackets,
are the paths of the leaves of the dictionary.
-/

abbrev NSString := List CodeUnit

/-! ## Escaping in batches -/

/-- The query characters of a URL without the delimiters that a query may
contain. -/
def allowedCharacterSet (scalar : Nat) : Bool :=
  (48 ≤ scalar && scalar ≤ 57) || (65 ≤ scalar && scalar ≤ 90) || (97 ≤ scalar && scalar ≤ 122) ||
    scalar == 45 || scalar == 46 || scalar == 47 || scalar == 63 || scalar == 95 || scalar == 126

def batchSize : Nat := 50

/-- The last boundary that is not behind the index. -/
def lastBoundary (isBoundary : Nat -> Bool) : Nat -> Nat
  | 0 => 0
  | index + 1 => if isBoundary (index + 1) then index + 1 else lastBoundary isBoundary index

/-- The first boundary from the index on, looking at no more than the given
number of units. -/
def firstBoundary (isBoundary : Nat -> Bool) : Nat -> Nat -> Nat
  | 0, index => index
  | units + 1, index =>
    if isBoundary index then index else firstBoundary isBoundary units (index + 1)

/-- `rangeOfComposedCharacterSequencesForRange:`, as the start and the end of
the range. -/
def rangeOfComposedCharacterSequences (isBoundary : Nat -> Bool) (length start stop : Nat) :
    Nat × Nat :=
  (lastBoundary isBoundary start, firstBoundary isBoundary (length - stop) stop)

/-- The loop of `AFPercentEscapedStringFromString`.  Nothing is returned where
`appendString:` raises because a batch cannot be encoded. -/
def escapeBatches (isBoundary : Nat -> Bool) (string : NSString) :
    Nat -> Nat -> NSString -> Option NSString
  | 0, _, escaped => some escaped
  | fuel + 1, index, escaped =>
    if index < string.length then
      let length := min (string.length - index) batchSize
      let range :=
        rangeOfComposedCharacterSequences isBoundary string.length index (index + length)
      let substring := (string.drop range.1).take (range.2 - range.1)
      match addingPercentEncoding allowedCharacterSet substring with
      | none => none
      | some encoded =>
        escapeBatches isBoundary string fuel (index + (range.2 - range.1)) (escaped ++ encoded)
    else some escaped

/-- `AFPercentEscapedStringFromString`. -/
def percentEscapedStringFromString (boundaries : NSString -> Nat -> Bool) (string : NSString) :
    Option NSString :=
  escapeBatches (boundaries string) string string.length 0 []

/-- What is known of composed characters: the end of the string ends one, and
none ends between the halves of a surrogate pair. -/
structure EndsCharacters (string : NSString) (isBoundary : Nat -> Bool) : Prop where
  atEnd : isBoundary string.length = true
  cutsNoPair : forall index, isBoundary index = true ->
    CutsNoPair (string.take index) (string.drop index)

/-- The boundaries of a text without combining marks. -/
def pairBoundary (string : NSString) (index : Nat) : Bool :=
  match (string.take index).getLast?, (string.drop index).head? with
  | some high, some low => !(isHighSurrogate high && isLowSurrogate low)
  | _, _ => true

theorem endsCharacters_pairBoundary (string : NSString) :
    EndsCharacters string (pairBoundary string) where
  atEnd := by
    unfold pairBoundary
    rw [List.drop_length]
    cases (string.take string.length).getLast? <;> rfl
  cutsNoPair := by
    intro index boundary high low last first isHigh isLow
    unfold pairBoundary at boundary
    rw [last, first] at boundary
    change (!(isHighSurrogate high && isLowSurrogate low)) = true at boundary
    rw [isHigh, isLow] at boundary
    cases boundary

/-- A batch as a range of the string. -/
def slice (string : NSString) (start stop : Nat) : NSString :=
  (string.drop start).take (stop - start)

theorem lastBoundary_of_boundary {isBoundary : Nat -> Bool} {index : Nat}
    (boundary : index = 0 ∨ isBoundary index = true) : lastBoundary isBoundary index = index := by
  cases index with
  | zero => rfl
  | succ index =>
      rcases boundary with impossible | boundary
      · cases impossible
      · exact if_pos boundary

/-- From an index on there is a first boundary, at the end of the string at
the latest. -/
theorem firstBoundary_spec {isBoundary : Nat -> Bool} {length : Nat}
    (atEnd : isBoundary length = true) {units index : Nat} (reaches : index + units = length) :
    isBoundary (firstBoundary isBoundary units index) = true ∧
      index ≤ firstBoundary isBoundary units index ∧
        firstBoundary isBoundary units index ≤ length := by
  induction units generalizing index with
  | zero =>
      have atIndex : index = length := by omega
      subst atIndex
      exact ⟨atEnd, Nat.le_refl _, Nat.le_refl _⟩
  | succ units inductionHypothesis =>
      unfold firstBoundary
      by_cases here : isBoundary index = true
      · rw [if_pos here]
        exact ⟨here, Nat.le_refl _, by omega⟩
      · rw [if_neg here]
        have later := inductionHypothesis (show index + 1 + units = length by omega)
        exact ⟨later.1, by omega, later.2.2⟩

theorem slice_append_drop (string : NSString) {start stop : Nat} (ordered : start ≤ stop) :
    slice string start stop ++ string.drop stop = string.drop start := by
  have shift : string.drop stop = (string.drop start).drop (stop - start) := by
    rw [List.drop_drop, Nat.add_sub_cancel' ordered]
  rw [slice, shift, List.take_append_drop]

theorem CutsNoPair.of_append {before first second : NSString}
    (cut : CutsNoPair (before ++ first) second) : CutsNoPair first second := by
  induction before with
  | nil => exact cut
  | cons unit rest inductionHypothesis => exact inductionHypothesis (CutsNoPair.of_cons cut)

/-- At the end of a batch no surrogate pair is cut. -/
theorem EndsCharacters.cutsAfterSlice {string : NSString} {isBoundary : Nat -> Bool}
    (ends : EndsCharacters string isBoundary) {start stop : Nat} (ordered : start ≤ stop)
    (boundary : isBoundary stop = true) :
    CutsNoPair (slice string start stop) (string.drop stop) := by
  have prefixSplit : string.take start ++ slice string start stop = string.take stop := by
    rw [slice, ← List.drop_take]
    conv_rhs => rw [← List.take_append_drop start (string.take stop)]
    rw [List.take_take, Nat.min_eq_left ordered]
  apply CutsNoPair.of_append
  rw [prefixSplit]
  exact ends.cutsNoPair stop boundary

/-- From a boundary on, the loop appends the encoding of all that is left. -/
theorem escapeBatches_eq {string : NSString} {isBoundary : Nat -> Bool}
    (ends : EndsCharacters string isBoundary) {fuel index : Nat}
    (enough : string.length ≤ index + fuel) (boundary : index = 0 ∨ isBoundary index = true)
    (escaped : NSString) :
    escapeBatches isBoundary string fuel index escaped =
      (addingPercentEncoding allowedCharacterSet (string.drop index)).map (escaped ++ ·) := by
  induction fuel generalizing index escaped with
  | zero =>
      rw [List.drop_eq_nil_of_le (by omega)]
      exact congrArg some (List.append_nil escaped).symm
  | succ fuel inductionHypothesis =>
      unfold escapeBatches
      by_cases more : index < string.length
      · rw [if_pos more]
        have positive : 0 < min (string.length - index) batchSize := by
          rw [batchSize]
          omega
        have start := lastBoundary_of_boundary boundary
        have reaches : index + min (string.length - index) batchSize +
            (string.length - (index + min (string.length - index) batchSize)) = string.length := by
          omega
        have stop := firstBoundary_spec ends.atEnd reaches
        simp only [rangeOfComposedCharacterSequences, start]
        revert stop
        generalize firstBoundary isBoundary
          (string.length - (index + min (string.length - index) batchSize))
          (index + min (string.length - index) batchSize) = stop
        rintro ⟨stopBoundary, notBefore, _⟩
        have ordered : index ≤ stop := by omega
        have pieces := @addingPercentEncoding_append allowedCharacterSet _ _
          (ends.cutsAfterSlice ordered stopBoundary)
        rw [slice_append_drop string ordered] at pieces
        rw [pieces]
        change (match addingPercentEncoding allowedCharacterSet (slice string index stop) with
          | none => none
          | some encoded => _) = _
        cases addingPercentEncoding allowedCharacterSet (slice string index stop) with
        | none => rfl
        | some encoded =>
            have continues := inductionHypothesis
              (show string.length ≤ index + (stop - index) + fuel by omega)
              (Or.inr (by rw [Nat.add_sub_cancel' ordered]; exact stopBoundary)) (escaped ++ encoded)
            change escapeBatches isBoundary string fuel (index + (stop - index)) (escaped ++ encoded) = _
            rw [continues, Nat.add_sub_cancel' ordered]
            cases addingPercentEncoding allowedCharacterSet (string.drop stop) with
            | none => rfl
            | some later => exact congrArg some (List.append_assoc escaped encoded later)
      · rw [if_neg more, List.drop_eq_nil_of_le (by omega)]
        exact congrArg some (List.append_nil escaped).symm

/-- Batches make no difference: the result is the encoding of the whole
string. -/
theorem percentEscapedStringFromString_eq {boundaries : NSString -> Nat -> Bool} {string : NSString}
    (ends : EndsCharacters string (boundaries string)) :
    percentEscapedStringFromString boundaries string =
      addingPercentEncoding allowedCharacterSet string := by
  rw [percentEscapedStringFromString, escapeBatches_eq ends (by omega) (Or.inl rfl)]
  change (addingPercentEncoding allowedCharacterSet string).map id = _
  rw [Option.map_id]
  rfl

/-! ## Pairs -/

/-- A Foundation object among the parameters.  Objects other than strings,
data and containers are known by their description. -/
inductive Parameter
  | null
  | string (value : NSString)
  | data (bytes : NSData) (description : NSString)
  | object (description : NSString)
  | dictionary (entries : List (NSString × Parameter))
  | array (elements : List Parameter)
  | set (elements : List Parameter)

theorem Parameter.sizeOf_entry_lt {entries : List (NSString × Parameter)}
    {entry : NSString × Parameter} (listed : entry ∈ entries) :
    sizeOf entry.2 < sizeOf (Parameter.dictionary entries) := by
  have smaller := List.sizeOf_lt_of_mem listed
  rcases entry with ⟨key, value⟩
  simp only [Parameter.dictionary.sizeOf_spec, Prod.mk.sizeOf_spec] at smaller ⊢
  omega

theorem Parameter.sizeOf_element_lt {elements : List Parameter} {element : Parameter}
    (listed : element ∈ elements) : sizeOf element < sizeOf (Parameter.array elements) := by
  have smaller := List.sizeOf_lt_of_mem listed
  simp only [Parameter.array.sizeOf_spec]
  omega

theorem Parameter.sizeOf_member_lt {elements : List Parameter} {element : Parameter}
    (listed : element ∈ elements) : sizeOf element < sizeOf (Parameter.set elements) := by
  have smaller := List.sizeOf_lt_of_mem listed
  simp only [Parameter.set.sizeOf_spec]
  omega

/-- How containers describe themselves, and `compare:` of two descriptions,
true unless the first is greater. -/
structure Descriptions where
  containerDescription : Parameter -> NSString
  ascending : NSString -> NSString -> Bool

def Parameter.description (descriptions : Descriptions) : Parameter -> NSString
  | .null => text "<null>"
  | .string value => value
  | .data _ description => description
  | .object description => description
  | container => descriptions.containerDescription container

structure AFQueryStringPair where
  field : Option NSString
  value : Parameter

def ampersand : CodeUnit := 38
def equalsSign : CodeUnit := 61
def leftBracket : CodeUnit := 91
def rightBracket : CodeUnit := 93

section Serialization

variable (descriptions : Descriptions) (boundaries : NSString -> Nat -> Bool)

/-- The entries of a dictionary, sorted by their keys. -/
def sortedEntries (entries : List (NSString × Parameter)) : List (NSString × Parameter) :=
  entries.mergeSort fun first second => descriptions.ascending first.1 second.1

/-- The elements of a set, sorted by their descriptions. -/
def sortedElements (elements : List Parameter) : List Parameter :=
  elements.mergeSort fun first second =>
    descriptions.ascending (first.description descriptions) (second.description descriptions)

/-- `[NSString stringWithFormat:@"%@[%@]", key, nestedKey]`, or the nested key
itself. -/
def nestedKey (key : Option NSString) (nested : NSString) : NSString :=
  match key with
  | none => nested
  | some key => key ++ leftBracket :: nested ++ [rightBracket]

/-- `[NSString stringWithFormat:@"%@[]", key]`. -/
def elementKey (key : Option NSString) : NSString :=
  key.getD (text "(null)") ++ [leftBracket, rightBracket]

/-- `AFQueryStringPairsFromKeyAndValue`. -/
def pairsFromKeyAndValue : Option NSString -> Parameter -> List AFQueryStringPair
  | key, .dictionary entries =>
      (sortedEntries descriptions entries).attach.flatMap fun entry =>
        pairsFromKeyAndValue (some (nestedKey key entry.1.1)) entry.1.2
  | key, .array elements =>
      elements.attach.flatMap fun element =>
        pairsFromKeyAndValue (some (elementKey key)) element.1
  | key, .set elements =>
      (sortedElements descriptions elements).attach.flatMap fun element =>
        pairsFromKeyAndValue key element.1
  | key, value => [⟨key, value⟩]
termination_by _ value => sizeOf value
decreasing_by
  · exact Parameter.sizeOf_entry_lt (List.mem_mergeSort.mp entry.2)
  · exact Parameter.sizeOf_element_lt element.2
  · exact Parameter.sizeOf_member_lt (List.mem_mergeSort.mp element.2)

/-- `AFQueryStringPairsFromDictionary`. -/
def pairsFromDictionary (dictionary : List (NSString × Parameter)) : List AFQueryStringPair :=
  pairsFromKeyAndValue descriptions none (.dictionary dictionary)

/-- `AFPercentEscapedStringFromString` of a description that may be nil. -/
def escapedDescription (description : Option NSString) : Option NSString :=
  match description with
  | none => some []
  | some description => percentEscapedStringFromString boundaries description

/-- `URLEncodedStringValue`. -/
def urlEncodedStringValue (pair : AFQueryStringPair) : Option NSString :=
  match pair.value with
  | .null => escapedDescription boundaries pair.field
  | value => do
    let field <- escapedDescription boundaries pair.field
    let value <- percentEscapedStringFromString boundaries (value.description descriptions)
    pure (field ++ equalsSign :: value)

/-- `AFQueryStringFromParameters`. -/
def queryStringFromParameters (parameters : List (NSString × Parameter)) : Option NSString :=
  ((pairsFromDictionary descriptions parameters).mapM
    (urlEncodedStringValue descriptions boundaries)).map ([ampersand].intercalate ·)

end Serialization

/-! ## Reading a query -/

/-- A pair as a receiver reads it: without an `=` there is no value. -/
structure ReadPair where
  field : NSString
  value : Option NSString
  deriving DecidableEq

/-- A receiver splits a segment at its first `=` and decodes the parts. -/
def readPair (segment : NSString) : Option ReadPair :=
  match segment.dropWhile (· != equalsSign) with
  | [] => (replacePercentEscapes segment).map fun field => ⟨field, none⟩
  | _ :: value => do
    let field <- replacePercentEscapes (segment.takeWhile (· != equalsSign))
    let value <- replacePercentEscapes value
    pure ⟨field, some value⟩

/-- A receiver splits a query at every `&`. -/
def readQuery (query : NSString) : Option (List ReadPair) :=
  (query.splitOn ampersand).mapM readPair

theorem intercalate_cons_eq {α : Type} (separator : α) (first : List α) (others : List (List α)) :
    [separator].intercalate (first :: others) = first ++ others.flatMap (separator :: ·) := by
  induction others generalizing first with
  | nil => rw [List.intercalate_singleton, List.flatMap_nil, List.append_nil]
  | cons second rest inductionHypothesis =>
      rw [List.intercalate_cons_cons, inductionHypothesis]
      rw [List.flatMap_cons, List.append_assoc]
      rfl

section Reading

variable (descriptions : Descriptions) (boundaries : NSString -> Nat -> Bool)

/-- The text of a value, which null has not. -/
def valueText : Parameter -> Option NSString
  | .null => none
  | value => some (value.description descriptions)

/-- What a receiver should read of a pair. -/
def readAs (pair : AFQueryStringPair) : ReadPair where
  field := pair.field.getD []
  value := valueText descriptions pair.value

variable {descriptions} {boundaries}
variable (ends : forall string, EndsCharacters string (boundaries string))

/-- `%` or an allowed character. -/
def isEscapedUnit (unit : CodeUnit) : Bool :=
  unit.toNat == 37 || allowedCharacterSet unit.toNat

/-- Escaped text decodes to the text and consists of escapes and allowed
characters. -/
structure EscapesTo (escaped string : NSString) : Prop where
  decodes : replacePercentEscapes escaped = some string
  units : forall unit, unit ∈ escaped -> isEscapedUnit unit = true

theorem EscapesTo.notMem {escaped string : NSString} (escapes : EscapesTo escaped string)
    {unit : CodeUnit} (separator : isEscapedUnit unit = false) : unit ∉ escaped := by
  intro listed
  have isEscaped := escapes.units unit listed
  rw [separator] at isEscaped
  cases isEscaped

include ends in
theorem escapesTo_of_percentEscaped {string escaped : NSString}
    (result : percentEscapedStringFromString boundaries string = some escaped) :
    EscapesTo escaped string := by
  rw [percentEscapedStringFromString_eq (ends string)] at result
  refine ⟨replacePercentEscapes_addingPercentEncoding (by decide) result, ?_⟩
  intro unit listed
  unfold isEscapedUnit
  rw [Bool.or_eq_true, beq_iff_eq]
  rcases mem_addingPercentEncoding result listed with percent | digit | letter | allowed
  · exact Or.inl percent
  · right
    simp [allowedCharacterSet, digit]
  · right
    have upper : 65 ≤ unit.toNat ∧ unit.toNat ≤ 90 := by omega
    simp [allowedCharacterSet, upper]
  · exact Or.inr allowed

include ends in
theorem escapesTo_of_escapedDescription {description : Option NSString} {escaped : NSString}
    (result : escapedDescription boundaries description = some escaped) :
    EscapesTo escaped (description.getD []) := by
  cases description with
  | none =>
      cases result
      exact ⟨by decide, fun _ listed => absurd listed List.not_mem_nil⟩
  | some description => exact escapesTo_of_percentEscaped ends result

theorem readPair_bare {escaped field : NSString} (escapes : EscapesTo escaped field) :
    readPair escaped = some ⟨field, none⟩ := by
  have noneLeft : escaped.dropWhile (· != equalsSign) = [] := by
    rw [List.dropWhile_eq_nil_iff]
    intro unit listed
    exact bne_iff_ne.mpr fun same => escapes.notMem (by decide) (same ▸ listed)
  rw [readPair, noneLeft, escapes.decodes]
  rfl

theorem readPair_keyed {escapedField escapedValue field value : NSString}
    (fieldEscapes : EscapesTo escapedField field) (valueEscapes : EscapesTo escapedValue value) :
    readPair (escapedField ++ equalsSign :: escapedValue) = some ⟨field, some value⟩ := by
  have plain : forall unit, unit ∈ escapedField -> (unit != equalsSign) = true := by
    intro unit listed
    exact bne_iff_ne.mpr fun same => fieldEscapes.notMem (by decide) (same ▸ listed)
  have behind : (escapedField ++ equalsSign :: escapedValue).dropWhile (· != equalsSign) =
      equalsSign :: escapedValue := by
    rw [List.dropWhile_append_of_pos plain]
    rfl
  have before : (escapedField ++ equalsSign :: escapedValue).takeWhile (· != equalsSign) =
      escapedField := by
    rw [List.takeWhile_append_of_pos plain]
    exact List.append_nil escapedField
  rw [readPair, behind]
  change (do
    let field <- replacePercentEscapes
      ((escapedField ++ equalsSign :: escapedValue).takeWhile (· != equalsSign))
    let value <- replacePercentEscapes escapedValue
    pure (⟨field, some value⟩ : ReadPair)) = _
  rw [before, fieldEscapes.decodes, valueEscapes.decodes]
  rfl

/-- The units of a written pair. -/
def isWrittenUnit (unit : CodeUnit) : Bool :=
  isEscapedUnit unit || unit == equalsSign

include ends in
/-- A pair is written in escaped units and at most an `=`, and a receiver
reads it back. -/
theorem readPair_urlEncodedStringValue {pair : AFQueryStringPair} {written : NSString}
    (result : urlEncodedStringValue descriptions boundaries pair = some written) :
    (forall unit, unit ∈ written -> isWrittenUnit unit = true) ∧
      readPair written = some (readAs descriptions pair) := by
  rcases pair with ⟨field, value⟩
  by_cases isNull : value = .null
  · subst isNull
    have escapes := escapesTo_of_escapedDescription ends result
    exact ⟨fun unit listed => Bool.or_eq_true_iff.mpr (Or.inl (escapes.units unit listed)),
      readPair_bare escapes⟩
  · have keyed : (do
        let field <- escapedDescription boundaries field
        let value <- percentEscapedStringFromString boundaries (value.description descriptions)
        pure (field ++ equalsSign :: value)) = some written := by
      cases value <;> first | exact absurd rfl isNull | exact result
    have text : valueText descriptions value = some (value.description descriptions) := by
      cases value <;> first | exact absurd rfl isNull | rfl
    rcases Option.bind_eq_some_iff.mp keyed with ⟨escapedField, fieldResult, rest⟩
    rcases Option.bind_eq_some_iff.mp rest with ⟨escapedValue, valueResult, same⟩
    cases same
    have fieldEscapes := escapesTo_of_escapedDescription ends fieldResult
    have valueEscapes := escapesTo_of_percentEscaped ends valueResult
    constructor
    · intro unit listed
      apply Bool.or_eq_true_iff.mpr
      rcases List.mem_append.mp listed with inField | later
      · exact Or.inl (fieldEscapes.units unit inField)
      · rcases List.mem_cons.mp later with isEquals | inValue
        · exact Or.inr (beq_iff_eq.mpr isEquals)
        · exact Or.inl (valueEscapes.units unit inValue)
    · rw [readPair_keyed fieldEscapes valueEscapes, readAs, text]

include ends in
theorem readPairs_of_mapM {pairs : List AFQueryStringPair} {written : List NSString}
    (result : pairs.mapM (urlEncodedStringValue descriptions boundaries) = some written) :
    (forall segment, segment ∈ written -> forall unit, unit ∈ segment -> isWrittenUnit unit = true) ∧
      written.length = pairs.length ∧
        written.mapM readPair = some (pairs.map (readAs descriptions)) := by
  induction pairs generalizing written with
  | nil =>
      rw [List.mapM_nil] at result
      cases result
      exact ⟨fun _ listed => absurd listed List.not_mem_nil, rfl, rfl⟩
  | cons pair rest inductionHypothesis =>
      rw [List.mapM_cons] at result
      rcases Option.bind_eq_some_iff.mp result with ⟨first, firstResult, others⟩
      rcases Option.bind_eq_some_iff.mp others with ⟨later, laterResult, same⟩
      cases same
      have here := readPair_urlEncodedStringValue ends firstResult
      rcases inductionHypothesis laterResult with ⟨plain, sameLength, reads⟩
      refine ⟨List.forall_mem_cons.mpr ⟨here.1, plain⟩, congrArg Nat.succ sameLength, ?_⟩
      rw [List.mapM_cons, here.2, reads]
      rfl

include ends in
/-- The units of a query string. -/
theorem mem_queryStringFromParameters {parameters : List (NSString × Parameter)} {query : NSString}
    (result : queryStringFromParameters descriptions boundaries parameters = some query)
    {unit : CodeUnit} (listed : unit ∈ query) : unit = ampersand ∨ isWrittenUnit unit = true := by
  rcases Option.map_eq_some_iff.mp result with ⟨written, segments, rfl⟩
  have plain := (readPairs_of_mapM ends segments).1
  rcases written with _ | ⟨first, others⟩
  · exact absurd listed List.not_mem_nil
  rw [intercalate_cons_eq] at listed
  rcases List.mem_append.mp listed with inFirst | inOthers
  · exact Or.inr (plain first List.mem_cons_self unit inFirst)
  · rcases List.mem_flatMap.mp inOthers with ⟨segment, member, inSegment⟩
    rcases List.mem_cons.mp inSegment with isAmpersand | inText
    · exact Or.inl isAmpersand
    · exact Or.inr (plain segment (List.mem_cons_of_mem _ member) unit inText)

include ends in
/-- A receiver reads the pairs of a non-empty query back, in their order. -/
theorem readQuery_queryStringFromParameters {parameters : List (NSString × Parameter)}
    {query : NSString} (nonempty : pairsFromDictionary descriptions parameters ≠ [])
    (result : queryStringFromParameters descriptions boundaries parameters = some query) :
    readQuery query =
      some ((pairsFromDictionary descriptions parameters).map (readAs descriptions)) := by
  rcases Option.map_eq_some_iff.mp result with ⟨written, segments, rfl⟩
  rcases readPairs_of_mapM ends segments with ⟨plain, sameLength, reads⟩
  have split : ([ampersand].intercalate written).splitOn ampersand = written := by
    apply List.splitOn_intercalate
    · intro segment member listed
      exact absurd (plain segment member ampersand listed) (by decide)
    · intro empty
      rw [empty] at sameLength
      exact nonempty (List.length_eq_zero_iff.mp sameLength.symm)
  rw [readQuery, split, reads]

end Reading

/-! ## What cannot be escaped -/

theorem percentEscapedStringFromString_eq_none_iff {boundaries : NSString -> Nat -> Bool}
    {string : NSString} (ends : EndsCharacters string (boundaries string)) :
    percentEscapedStringFromString boundaries string = none ↔ utf16Decode string = none := by
  rw [percentEscapedStringFromString_eq ends]
  exact Option.map_eq_none_iff

/-- Wherever composed characters end, the escaped text is the same.  There is
none exactly where the text has a lone surrogate, and otherwise it is written
in allowed characters and decodes to the text. -/
theorem percentEscapedStringFromString_of_any_boundaries {string : NSString}
    {boundaries others : NSString -> Nat -> Bool}
    (ends : forall string, EndsCharacters string (boundaries string))
    (othersEnd : forall string, EndsCharacters string (others string)) :
    percentEscapedStringFromString boundaries string = percentEscapedStringFromString others string ∧
      (percentEscapedStringFromString boundaries string = none ↔ utf16Decode string = none) ∧
        forall escaped, percentEscapedStringFromString boundaries string = some escaped ->
          replacePercentEscapes escaped = some string ∧
            forall unit, unit ∈ escaped -> unit.toNat = 37 ∨ allowedCharacterSet unit.toNat = true := by
  refine ⟨?_, percentEscapedStringFromString_eq_none_iff (ends string), ?_⟩
  · rw [percentEscapedStringFromString_eq (ends string),
      percentEscapedStringFromString_eq (othersEnd string)]
  · intro escaped result
    have escapes := escapesTo_of_percentEscaped ends result
    refine ⟨escapes.decodes, fun unit listed => ?_⟩
    rcases Bool.or_eq_true_iff.mp (escapes.units unit listed) with percent | allowed
    · exact Or.inl (beq_iff_eq.mp percent)
    · exact Or.inr allowed

/-- The boundaries of a text that is one composed character. -/
def wholeBoundary (string : NSString) (index : Nat) : Bool :=
  decide (string.length ≤ index)

theorem endsCharacters_wholeBoundary (string : NSString) :
    EndsCharacters string (wholeBoundary string) where
  atEnd := decide_eq_true (Nat.le_refl _)
  cutsNoPair := by
    intro index boundary high low _ first
    rw [List.drop_eq_nil_of_le (of_decide_eq_true boundary)] at first
    cases first

/-- Forty-nine letters and an `e` with an accent: the unit of the accent is
the first of the second batch, or the whole text is one character. -/
def accented : NSString :=
  List.replicate 49 97 ++ [101, 0x301]

theorem percentEscapedStringFromString_accent :
    percentEscapedStringFromString pairBoundary accented =
        percentEscapedStringFromString wholeBoundary accented ∧
      percentEscapedStringFromString pairBoundary accented =
        some (List.replicate 49 97 ++ text "e%CC%81") ∧
      replacePercentEscapes (List.replicate 49 97 ++ text "e%CC%81") = some accented := by
  have escapes := @percentEscapedStringFromString_of_any_boundaries accented pairBoundary
    wholeBoundary endsCharacters_pairBoundary endsCharacters_wholeBoundary
  have escaped : percentEscapedStringFromString pairBoundary accented =
      some (List.replicate 49 97 ++ text "e%CC%81") := by
    decide +kernel
  exact ⟨escapes.1, escaped, (escapes.2.2 _ escaped).1⟩

section Exceptions

variable (descriptions : Descriptions)

/-- A pair with a lone surrogate in its field or in its value. -/
def Unescapable (pair : AFQueryStringPair) : Prop :=
  utf16Decode (pair.field.getD []) = none ∨
    (valueText descriptions pair.value).bind utf16Decode = none ∧
      valueText descriptions pair.value ≠ none

variable {descriptions} {boundaries : NSString -> Nat -> Bool}
variable (ends : forall string, EndsCharacters string (boundaries string))

include ends in
theorem escapedDescription_eq_none_iff (description : Option NSString) :
    escapedDescription boundaries description = none ↔ utf16Decode (description.getD []) = none := by
  cases description with
  | none => exact ⟨nofun, nofun⟩
  | some description => exact percentEscapedStringFromString_eq_none_iff (ends description)

include ends in
theorem urlEncodedStringValue_eq_none_iff (pair : AFQueryStringPair) :
    urlEncodedStringValue descriptions boundaries pair = none ↔ Unescapable descriptions pair := by
  rcases pair with ⟨field, value⟩
  have ofField := escapedDescription_eq_none_iff ends field
  by_cases isNull : value = .null
  · subst isNull
    change escapedDescription boundaries field = none ↔ _
    rw [ofField]
    exact ⟨Or.inl, fun either => either.elim id fun impossible => absurd rfl impossible.2⟩
  · have text : valueText descriptions value = some (value.description descriptions) := by
      cases value <;> first | exact absurd rfl isNull | rfl
    have ofValue := percentEscapedStringFromString_eq_none_iff (ends (value.description descriptions))
    have keyed : urlEncodedStringValue descriptions boundaries ⟨field, value⟩ =
        (escapedDescription boundaries field).bind fun field =>
          (percentEscapedStringFromString boundaries (value.description descriptions)).bind
            fun value => some (field ++ equalsSign :: value) := by
      cases value <;> first | exact absurd rfl isNull | rfl
    rw [keyed, Unescapable, text, Option.bind_some, ← ofField, ← ofValue]
    cases escapedDescription boundaries field with
    | none => exact ⟨fun _ => Or.inl rfl, fun _ => rfl⟩
    | some escapedField =>
        rw [Option.bind_some]
        cases percentEscapedStringFromString boundaries (value.description descriptions) with
        | none => exact ⟨fun _ => Or.inr ⟨rfl, nofun⟩, fun _ => rfl⟩
        | some escapedValue => exact ⟨nofun, fun either => either.elim nofun fun both => nomatch both.1⟩

theorem mapM_eq_none_iff {Item Image : Type} {image : Item -> Option Image} {items : List Item} :
    items.mapM image = none ↔ Exists fun item => item ∈ items ∧ image item = none := by
  induction items with
  | nil =>
      rw [List.mapM_nil]
      exact ⟨nofun, fun ⟨_, listed, _⟩ => absurd listed List.not_mem_nil⟩
  | cons item rest inductionHypothesis =>
      rw [List.mapM_cons, List.exists_mem_cons_iff, ← inductionHypothesis]
      cases image item with
      | none => exact ⟨fun _ => Or.inl rfl, fun _ => rfl⟩
      | some first =>
          cases rest.mapM image with
          | none => exact ⟨fun _ => Or.inr rfl, fun _ => rfl⟩
          | some later => exact ⟨nofun, fun either => either.elim nofun nofun⟩

/-- The query string raises an exception exactly if some pair of the
dictionary has a lone surrogate in its field or in its value. -/
theorem queryStringFromParameters_eq_none_iff (ends : forall string, EndsCharacters string
      (boundaries string)) (parameters : List (NSString × Parameter)) :
    queryStringFromParameters descriptions boundaries parameters = none ↔
      Exists fun pair => pair ∈ pairsFromDictionary descriptions parameters ∧
        Unescapable descriptions pair := by
  rw [queryStringFromParameters, Option.map_eq_none_iff, mapM_eq_none_iff]
  exact exists_congr fun pair => and_congr_right fun _ => urlEncodedStringValue_eq_none_iff ends pair

/-- Descriptions that are enough where no more than one entry is sorted. -/
def fewDescriptions : Descriptions := ⟨fun _ => [], fun _ _ => true⟩

/-- The key is a lone surrogate. -/
theorem queryStringFromParameters_of_lone_surrogate :
    queryStringFromParameters fewDescriptions pairBoundary [([0xD83D], .null)] = none := by
  rw [queryStringFromParameters_eq_none_iff endsCharacters_pairBoundary]
  refine ⟨⟨some [0xD83D], .null⟩, ?_, Or.inl (by decide)⟩
  rw [pairsFromDictionary, pairsFromKeyAndValue, sortedEntries, List.mergeSort_singleton]
  simp [pairsFromKeyAndValue, nestedKey]

end Exceptions

/-! ## Fields as paths -/

/-- A step from a container to one of its values.  Sets add no step. -/
inductive PathStep
  | key (name : NSString)
  | element
  deriving DecidableEq

/-- The field after one more step. -/
def fieldAfter (key : Option NSString) : PathStep -> Option NSString
  | .key name => some (nestedKey key name)
  | .element => some (elementKey key)

section Leaves

variable (descriptions : Descriptions)

/-- The leaves of an object with their paths.  Keys and sets are sorted. -/
def leaves : Parameter -> List (List PathStep × Parameter)
  | .dictionary entries =>
      (sortedEntries descriptions entries).attach.flatMap fun entry =>
        (leaves entry.1.2).map fun leaf => (.key entry.1.1 :: leaf.1, leaf.2)
  | .array elements =>
      elements.attach.flatMap fun element =>
        (leaves element.1).map fun leaf => (.element :: leaf.1, leaf.2)
  | .set elements => (sortedElements descriptions elements).attach.flatMap fun element => leaves element.1
  | value => [([], value)]
termination_by value => sizeOf value
decreasing_by
  · exact Parameter.sizeOf_entry_lt (List.mem_mergeSort.mp entry.2)
  · exact Parameter.sizeOf_element_lt element.2
  · exact Parameter.sizeOf_member_lt (List.mem_mergeSort.mp element.2)

/-- The pair of a leaf below a key. -/
def pairOfLeaf (key : Option NSString) (leaf : List PathStep × Parameter) : AFQueryStringPair :=
  ⟨leaf.1.foldl fieldAfter key, leaf.2⟩

/-- Flattening lists the leaves, each with the field of its path. -/
theorem pairsFromKeyAndValue_eq_leaves (key : Option NSString) (value : Parameter) :
    pairsFromKeyAndValue descriptions key value =
      (leaves descriptions value).map (pairOfLeaf key) := by
  induction key, value using pairsFromKeyAndValue.induct descriptions with
  | case1 key entries inductionHypothesis =>
      rw [pairsFromKeyAndValue, leaves, List.map_flatMap]
      apply List.flatMap_congr
      intro entry _
      rw [inductionHypothesis entry, List.map_map]
      rfl
  | case2 key elements inductionHypothesis =>
      rw [pairsFromKeyAndValue, leaves, List.map_flatMap]
      apply List.flatMap_congr
      intro element _
      rw [inductionHypothesis element, List.map_map]
      rfl
  | case3 key elements inductionHypothesis =>
      rw [pairsFromKeyAndValue, leaves, List.map_flatMap]
      apply List.flatMap_congr
      intro element _
      exact inductionHypothesis element
  | case4 key value notDictionary notArray notSet =>
      rw [pairsFromKeyAndValue, leaves]
      · rfl
      · exact notDictionary
      · exact notArray
      · exact notSet
      · exact notDictionary
      · exact notArray
      · exact notSet

end Leaves

/-- What stands behind the bracket that opens a step. -/
def PathStep.segment : PathStep -> NSString
  | .key name => name ++ [rightBracket]
  | .element => [rightBracket]

/-- A receiver reads empty brackets as an element of an array. -/
def readSegment (segment : NSString) : Option PathStep :=
  if segment.getLast? = some rightBracket then
    some (if segment.dropLast = [] then .element else .key segment.dropLast)
  else none

/-- A receiver reads a field as a key followed by steps in brackets. -/
def readPath (field : NSString) : Option (List PathStep) :=
  match field.splitOn leftBracket with
  | [] => none
  | name :: segments => (segments.mapM readSegment).map (.key name :: ·)

/-- A key that brackets can hold. -/
def PathStep.Plain : PathStep -> Prop
  | .key name => leftBracket ∉ name ∧ name ≠ []
  | .element => True

/-- A path from the top of a dictionary that its field shows: the first key
has no bracket, and the others are not empty either. -/
def PlainPath : List PathStep -> Prop
  | .key name :: steps => leftBracket ∉ name ∧ forall step, step ∈ steps -> step.Plain
  | _ => False

theorem readSegment_segment {step : PathStep} (plain : step.Plain) :
    readSegment step.segment = some step := by
  cases step with
  | key name =>
      rw [PathStep.segment, readSegment, List.getLast?_concat, if_pos rfl, List.dropLast_concat,
        if_neg plain.2]
  | element => rfl

theorem mapM_readSegment {steps : List PathStep} (plain : forall step, step ∈ steps -> step.Plain) :
    (steps.map PathStep.segment).mapM readSegment = some steps := by
  induction steps with
  | nil => rfl
  | cons step rest inductionHypothesis =>
      have parts := List.forall_mem_cons.mp plain
      rw [List.map_cons, List.mapM_cons, readSegment_segment parts.1, inductionHypothesis parts.2]
      rfl

theorem leftBracket_notMem_segment {step : PathStep} (plain : step.Plain) :
    leftBracket ∉ step.segment := by
  cases step with
  | key name =>
      intro listed
      rcases List.mem_append.mp listed with inName | isRight
      · exact plain.1 inName
      · exact absurd (List.mem_singleton.mp isRight) (by decide)
  | element => decide

theorem foldl_fieldAfter (key : NSString) (steps : List PathStep) :
    steps.foldl fieldAfter (some key) =
      some (key ++ steps.flatMap fun step => leftBracket :: step.segment) := by
  induction steps generalizing key with
  | nil => exact congrArg some (List.append_nil key).symm
  | cons step rest inductionHypothesis =>
      have here : fieldAfter (some key) step = some (key ++ leftBracket :: step.segment) := by
        cases step with
        | key name => exact congrArg some (List.append_assoc key (leftBracket :: name) [rightBracket])
        | element => rfl
      rw [List.foldl_cons, here, inductionHypothesis, List.flatMap_cons, List.append_assoc]

/-- The field of a plain path shows the path. -/
theorem readPath_field {path : List PathStep} (plain : PlainPath path) :
    readPath ((path.foldl fieldAfter none).getD []) = some path := by
  rcases path with _ | ⟨_ | _, steps⟩
  · exact plain.elim
  · rename_i name
    have split : (name ++ steps.flatMap fun step => leftBracket :: step.segment).splitOn leftBracket =
        name :: steps.map PathStep.segment := by
      have joined := intercalate_cons_eq leftBracket name (steps.map PathStep.segment)
      rw [List.flatMap_map] at joined
      rw [← joined]
      apply List.splitOn_intercalate
      · intro segment listed
        rcases List.mem_cons.mp listed with rfl | isSegment
        · exact plain.1
        · rcases List.mem_map.mp isSegment with ⟨step, member, rfl⟩
          exact leftBracket_notMem_segment (plain.2 step member)
      · exact List.cons_ne_nil _ _
    rw [List.foldl_cons]
    change readPath ((steps.foldl fieldAfter (some name)).getD []) = _
    rw [foldl_fieldAfter, Option.getD_some, readPath, split]
    change ((steps.map PathStep.segment).mapM readSegment).map _ = _
    rw [mapM_readSegment plain.2]
    rfl
  · exact plain.elim

/-- A receiver that reads fields as paths. -/
def readLeaves (query : NSString) : Option (List (List PathStep × Option NSString)) := do
  let pairs <- readQuery query
  pairs.mapM fun pair => (readPath pair.field).map fun path => (path, pair.value)

section RoundTrip

variable {descriptions : Descriptions} {boundaries : NSString -> Nat -> Bool}

/-- A receiver that reads fields as paths gets every leaf of the dictionary
once, with its path and in sorted order. -/
theorem readLeaves_queryStringFromParameters
    (ends : forall string, EndsCharacters string (boundaries string))
    {parameters : List (NSString × Parameter)} {query : NSString}
    (nonempty : leaves descriptions (.dictionary parameters) ≠ [])
    (plain : forall leaf, leaf ∈ leaves descriptions (.dictionary parameters) -> PlainPath leaf.1)
    (result : queryStringFromParameters descriptions boundaries parameters = some query) :
    readLeaves query =
      some ((leaves descriptions (.dictionary parameters)).map fun leaf =>
        (leaf.1, valueText descriptions leaf.2)) := by
  have pairs : pairsFromDictionary descriptions parameters =
      (leaves descriptions (.dictionary parameters)).map (pairOfLeaf none) :=
    pairsFromKeyAndValue_eq_leaves descriptions none (.dictionary parameters)
  have somePairs : pairsFromDictionary descriptions parameters ≠ [] := by
    rw [pairs]
    exact fun empty => nonempty (List.map_eq_nil_iff.mp empty)
  rw [readLeaves, readQuery_queryStringFromParameters ends somePairs result, pairs]
  clear pairs somePairs nonempty result
  change ((_ : List AFQueryStringPair).map _).mapM _ = _
  rw [List.map_map, List.mapM_map]
  generalize leaves descriptions (.dictionary parameters) = all at plain
  induction all with
  | nil => rfl
  | cons leaf rest inductionHypothesis =>
      have parts := List.forall_mem_cons.mp plain
      have path : readPath ((leaf.1.foldl fieldAfter none).getD []) = some leaf.1 :=
        readPath_field parts.1
      rw [List.mapM_cons, inductionHypothesis parts.2]
      change ((readPath ((leaf.1.foldl fieldAfter none).getD [])).map _).bind _ = _
      rw [path]
      rfl

end RoundTrip

/-- The parameters `{"tags": ["a&b", null]}`. -/
def tagParameters : List (NSString × Parameter) :=
  [(text "tags", .array [.string (text "a&b"), .null])]

theorem leaves_tagParameters : leaves fewDescriptions (.dictionary tagParameters) =
    [([.key (text "tags"), .element], .string (text "a&b")),
      ([.key (text "tags"), .element], .null)] := by
  rw [tagParameters, leaves, sortedEntries, List.mergeSort_singleton]
  simp [leaves]

theorem queryStringFromParameters_tagParameters :
    queryStringFromParameters fewDescriptions pairBoundary tagParameters =
      some (text "tags%5B%5D=a%26b&tags%5B%5D") := by
  rw [queryStringFromParameters, pairsFromDictionary, pairsFromKeyAndValue_eq_leaves, leaves_tagParameters]
  decide +kernel

theorem readLeaves_of_tagParameters : readLeaves (text "tags%5B%5D=a%26b&tags%5B%5D") = some
  [([.key (text "tags"), .element], some (text "a&b")), ([.key (text "tags"), .element], none)] := by
  have reads := readLeaves_queryStringFromParameters endsCharacters_pairBoundary
    (by rw [leaves_tagParameters]; exact List.cons_ne_nil _ _)
    (by
      intro leaf listed
      rw [leaves_tagParameters] at listed
      simp only [List.mem_cons, List.not_mem_nil, or_false] at listed
      rcases listed with rfl | rfl <;>
        exact ⟨by decide, fun step inSteps => by rw [List.mem_singleton.mp inSteps]; exact trivial⟩)
    queryStringFromParameters_tagParameters
  rw [leaves_tagParameters] at reads
  exact reads

end AFNetworking
end Network
end HowBigDemo
