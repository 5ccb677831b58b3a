import Mathlib.Data.List.Basic

namespace HowBigDemo
namespace Network

/-!
# JSON objects and the removal of null values

The object trees that `NSJSONSerialization` delivers, with the mutability of
each container, and the function with which `DefaultRequest` strips null
values from dictionaries.
-/

/-- A Foundation object tree.  Numbers keep their text. -/
inductive JSONObject
  | null
  | bool (value : Bool)
  | number (literal : String)
  | string (value : String)
  | array (isMutable : Bool) (elements : List JSONObject)
  | dictionary (isMutable : Bool) (entries : List (String × JSONObject))

namespace JSONObject

/-- `[value isKindOfClass:[NSDictionary class]]`. -/
def isDictionary : JSONObject -> Bool
  | .dictionary _ _ => true
  | _ => false

/-- `objectForKey:` of a dictionary's entries. -/
def objectForKey (entries : List (String × JSONObject)) (key : String) : Option JSONObject :=
  entries.lookup key

mutual

/-- `GHHJSONObjectByRemovingKeysWithNullValues`.  The option says whether
the new containers are mutable. -/
def removingKeysWithNullValues (mutableContainers : Bool) : JSONObject -> JSONObject
  | .array _ elements => .array mutableContainers (removingFromElements mutableContainers elements)
  | .dictionary _ entries =>
      .dictionary mutableContainers (removingFromEntries mutableContainers entries)
  | leaf => leaf

/-- Every element is replaced, and null elements stay. -/
def removingFromElements (mutableContainers : Bool) : List JSONObject -> List JSONObject
  | [] => []
  | value :: rest =>
      removingKeysWithNullValues mutableContainers value ::
        removingFromElements mutableContainers rest

/-- Keys with null values go, containers are replaced and other values stay. -/
def removingFromEntries (mutableContainers : Bool) :
    List (String × JSONObject) -> List (String × JSONObject)
  | [] => []
  | (key, value) :: rest =>
      match value with
      | .null => removingFromEntries mutableContainers rest
      | value =>
        (key, removingKeysWithNullValues mutableContainers value) ::
          removingFromEntries mutableContainers rest

end

end JSONObject
end Network
end HowBigDemo
