import HowBigDemo.Library.TextEncoding

namespace HowBigDemo
namespace Bridge

open Library

/-!
# Reading the query of an intercepted URL

Both web controllers read the parameters of a `haleyaction` URL with the
same loop, copied into three methods of each.  A query is split at `&`, each
segment at `=`, and the second component of a segment with at least two is
percent-decoded and stored under the first.  Decoding can fail, and then a
nil value reaches `setObject:forKey:`, which raises.
-/

abbrev NSString := List CodeUnit

/-- The parts of a URL that the controllers look at.  Any of them may be
absent. -/
structure NSURL where
  scheme : Option NSString
  host : Option NSString
  query : Option NSString
  deriving DecidableEq

/-- `NSInvalidArgumentException`, raised by `setObject:forKey:` for nil. -/
inductive NSException
  | invalidArgument
  deriving DecidableEq

/-- A dictionary as the function that `objectForKey:` computes. -/
abbrev NSDictionary := NSString -> Option NSString

def emptyDictionary : NSDictionary :=
  fun _ => none

/-- `setObject:forKey:`, where the object may be nil. -/
def setObject (dictionary : NSDictionary) (object : Option NSString) (key : NSString) :
    Except NSException NSDictionary :=
  match object with
  | none => .error .invalidArgument
  | some object => .ok fun other => if other = key then some object else dictionary other

def ampersand : CodeUnit := 38
def equalsSign : CodeUnit := 61

/-- `componentsSeparatedByString:` for a separator of one unit; nil has no
components. -/
def componentsSeparatedBy (separator : CodeUnit) : Option NSString -> List NSString
  | none => []
  | some string => string.splitOn separator

/-- The loop over the segments of a query. -/
def readSegments (tempDic : NSDictionary) : List NSString -> Except NSException NSDictionary
  | [] => .ok tempDic
  | paramStr :: rest =>
    match componentsSeparatedBy equalsSign (some paramStr) with
    | key :: value :: _ =>
      match setObject tempDic (replacePercentEscapes value) key with
      | .error exception => .error exception
      | .ok tempDic => readSegments tempDic rest
    | _ => readSegments tempDic rest

/-- The parameters of a query, or the exception that reading them raises. -/
def readParameters (query : Option NSString) : Except NSException NSDictionary :=
  readSegments emptyDictionary (componentsSeparatedBy ampersand query)

/-- The dictionary that reading a query builds when it does not raise. -/
def parametersOf (query : Option NSString) : NSDictionary :=
  match readParameters query with
  | .ok parameters => parameters
  | .error _ => emptyDictionary

theorem readParameters_of_isOk {query : Option NSString}
    (read : (readParameters query).isOk = true) :
    readParameters query = .ok (parametersOf query) := by
  unfold parametersOf
  cases outcome : readParameters query with
  | error exception =>
      rw [outcome] at read
      cases read
  | ok parameters => rfl

end Bridge
end HowBigDemo
