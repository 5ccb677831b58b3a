import HowBigDemo.Library.Dictionary
import HowBigDemo.Network.Requests

namespace HowBigDemo
namespace Network

open Library.Dictionary

/-!
# What the removal of null values keeps

`GHHJSONObjectByRemovingKeysWithNullValues` walks an object tree, edits a
mutable copy of every dictionary while it goes through the keys of the
original, and rebuilds every array.  A dictionary has each of its keys once.
On such trees the walk computes `removingKeysWithNullValues`, in which a
dictionary is rebuilt from its entries.

A key path is a list of steps into a tree.  The cleaned tree has the same
paths as its source, with the cleaned value at the end, except for the
dictionary keys whose value was null.
-/

/-- `NSJSONReadingOptions`, a set of bits. -/
abbrev NSJSONReadingOptions := UInt64

/-- `NSJSONReadingMutableContainers`. -/
def NSJSONReadingMutableContainers : NSJSONReadingOptions := 1

/-- `readingOptions & NSJSONReadingMutableContainers` as a condition. -/
def wantsMutableContainers (readingOptions : NSJSONReadingOptions) : Bool :=
  readingOptions &&& NSJSONReadingMutableContainers != 0

namespace JSONObject

/-- `[value isEqual:[NSNull null]]`. -/
def isNull : JSONObject -> Bool
  | .null => true
  | _ => false

/-- `[value isKindOfClass:[NSArray class]] || [value isKindOfClass:[NSDictionary class]]`. -/
def isContainer : JSONObject -> Bool
  | .array _ _ => true
  | .dictionary _ _ => true
  | _ => false

mutual

/-- `GHHJSONObjectByRemovingKeysWithNullValues`. -/
def ghhJSONObjectByRemovingKeysWithNullValues (readingOptions : NSJSONReadingOptions) :
    JSONObject -> JSONObject
  | .array _ elements =>
      .array (wantsMutableContainers readingOptions) (addingElements readingOptions elements [])
  | .dictionary _ entries =>
      .dictionary (wantsMutableContainers readingOptions)
        (editingEntries readingOptions entries entries)
  | leaf => leaf

/-- The loop over the elements of an array, which adds to the mutable one. -/
def addingElements (readingOptions : NSJSONReadingOptions) :
    List JSONObject -> List JSONObject -> List JSONObject
  | [], mutableArray => mutableArray
  | value :: rest, mutableArray =>
      addingElements readingOptions rest
        (mutableArray ++ [ghhJSONObjectByRemovingKeysWithNullValues readingOptions value])

/-- The loop over the keys of a dictionary, which edits the mutable copy. -/
def editingEntries (readingOptions : NSJSONReadingOptions) :
    List (String × JSONObject) -> List (String × JSONObject) -> List (String × JSONObject)
  | [], mutableDictionary => mutableDictionary
  | (key, value) :: rest, mutableDictionary =>
      if value.isNull then
        editingEntries readingOptions rest (removeObject mutableDictionary key)
      else if value.isContainer then
        editingEntries readingOptions rest
          (setObject mutableDictionary key
            (ghhJSONObjectByRemovingKeysWithNullValues readingOptions value))
      else
        editingEntries readingOptions rest mutableDictionary

end

mutual

/-- Every dictionary in the tree has each of its keys once. -/
def DistinctKeys : JSONObject -> Prop
  | .array _ elements => DistinctKeysOfElements elements
  | .dictionary _ entries => Distinct entries ∧ DistinctKeysOfEntries entries
  | _ => True

def DistinctKeysOfElements : List JSONObject -> Prop
  | [] => True
  | value :: rest => value.DistinctKeys ∧ DistinctKeysOfElements rest

def DistinctKeysOfEntries : List (String × JSONObject) -> Prop
  | [] => True
  | (_, value) :: rest => value.DistinctKeys ∧ DistinctKeysOfEntries rest

end

end JSONObject

/-- An object tree as Foundation can hold it. -/
structure JSONTree where
  object : JSONObject
  distinctKeys : object.DistinctKeys

/-- One step of a key path, into a dictionary or into an array. -/
inductive PathStep
  | key (name : String)
  | index (position : Nat)
  deriving DecidableEq

namespace JSONObject

/-- The value that a step leads to. -/
def child : JSONObject -> PathStep -> Option JSONObject
  | .dictionary _ entries, .key name => objectForKey entries name
  | .array _ elements, .index position => elements[position]?
  | _, _ => none

/-- The value that a key path resolves to. -/
def atPath (object : JSONObject) : List PathStep -> Option JSONObject
  | [] => some object
  | step :: rest => (object.child step).bind (fun value => value.atPath rest)

end JSONObject

/-! ## The walk computes the cleaned tree -/

namespace JSONObject

theorem eq_null_of_isNull {object : JSONObject} (isNull : object.isNull = true) : object = .null := by
  cases object with
  | null => rfl
  | _ => cases isNull

/-- A value that is no container stays as it is. -/
theorem removingKeysWithNullValues_leaf (mutableContainers : Bool) {object : JSONObject}
    (isLeaf : object.isContainer = false) :
    object.removingKeysWithNullValues mutableContainers = object := by
  cases object with
  | array => cases isLeaf
  | dictionary => cases isLeaf
  | _ => rfl

theorem isNull_removingKeysWithNullValues (mutableContainers : Bool) (object : JSONObject) :
    (object.removingKeysWithNullValues mutableContainers).isNull = object.isNull := by
  cases object <;> rfl

theorem isContainer_removingKeysWithNullValues (mutableContainers : Bool) (object : JSONObject) :
    (object.removingKeysWithNullValues mutableContainers).isContainer = object.isContainer := by
  cases object <;> rfl

theorem removingFromElements_eq_map (mutableContainers : Bool) (elements : List JSONObject) :
    removingFromElements mutableContainers elements =
      elements.map (removingKeysWithNullValues mutableContainers) := by
  induction elements with
  | nil => rfl
  | cons value rest inductionHypothesis =>
      rw [removingFromElements, inductionHypothesis]
      rfl

theorem removingFromEntries_cons (mutableContainers : Bool) (entry : String × JSONObject)
    (rest : List (String × JSONObject)) :
    removingFromEntries mutableContainers (entry :: rest) =
      if entry.2.isNull then removingFromEntries mutableContainers rest
      else
        (entry.1, entry.2.removingKeysWithNullValues mutableContainers) ::
          removingFromEntries mutableContainers rest := by
  rcases entry with ⟨key, value⟩
  cases value <;> rfl

mutual

/-- The walk over a tree with distinct keys is the recursion over its
entries. -/
theorem ghh_eq_removingKeysWithNullValues (readingOptions : NSJSONReadingOptions) :
    (object : JSONObject) -> object.DistinctKeys ->
      ghhJSONObjectByRemovingKeysWithNullValues readingOptions object =
        object.removingKeysWithNullValues (wantsMutableContainers readingOptions)
  | .array _ elements, distinct => by
      have added := addingElements_eq readingOptions elements distinct []
      rw [ghhJSONObjectByRemovingKeysWithNullValues, added]
      rfl
  | .dictionary _ entries, distinct => by
      have edited := editingEntries_eq readingOptions entries distinct.2 [] distinct.1
      rw [ghhJSONObjectByRemovingKeysWithNullValues]
      rw [List.nil_append] at edited
      rw [edited]
      rfl
  | .null, _ => rfl
  | .bool _, _ => rfl
  | .number _, _ => rfl
  | .string _, _ => rfl

theorem addingElements_eq (readingOptions : NSJSONReadingOptions) :
    (elements : List JSONObject) -> DistinctKeysOfElements elements ->
      (mutableArray : List JSONObject) ->
        addingElements readingOptions elements mutableArray =
          mutableArray ++ removingFromElements (wantsMutableContainers readingOptions) elements
  | [], _, mutableArray => (List.append_nil mutableArray).symm
  | value :: rest, distinct, mutableArray => by
      rw [addingElements, ghh_eq_removingKeysWithNullValues readingOptions value distinct.1,
        addingElements_eq readingOptions rest distinct.2, List.append_assoc]
      rfl

/-- The entries before the current key are cleaned, those from it on are
still the original ones. -/
theorem editingEntries_eq (readingOptions : NSJSONReadingOptions) :
    (entries : List (String × JSONObject)) -> DistinctKeysOfEntries entries ->
      (done : List (String × JSONObject)) -> Distinct (done ++ entries) ->
        editingEntries readingOptions entries (done ++ entries) =
          done ++ removingFromEntries (wantsMutableContainers readingOptions) entries
  | [], _, done, _ => rfl
  | (key, value) :: rest, distinct, done, distinctHere => by
      have atValue := ghh_eq_removingKeysWithNullValues readingOptions value distinct.1
      have atRest := editingEntries_eq readingOptions rest distinct.2
      rw [editingEntries, removingFromEntries_cons]
      by_cases isNull : value.isNull
      · rw [if_pos isNull, if_pos isNull, removeObject_at distinctHere]
        refine atRest done (distinctHere.of_sublist ?_)
        exact ((List.sublist_cons_self (key, value) rest).append_left done).map Prod.fst
      · rw [if_neg isNull, if_neg isNull]
        have distinctAfter (newValue : JSONObject) :
            Distinct ((done ++ [(key, newValue)]) ++ rest) := by
          refine distinctHere.of_sublist ?_
          simp only [List.map_append, List.map_cons, List.append_assoc, List.cons_append,
            List.nil_append]
          exact List.Sublist.refl _
        by_cases isContainer : value.isContainer
        · rw [if_pos isContainer, atValue, setObject_at _ distinctHere]
          rw [List.append_cons, atRest _ (distinctAfter _), ← List.append_cons]
        · rw [if_neg isContainer, List.append_cons, atRest _ (distinctAfter _), ← List.append_cons,
            removingKeysWithNullValues_leaf _ (Bool.eq_false_iff.mpr isContainer)]

end

end JSONObject

/-! ## Key paths in the cleaned tree -/

/-- The last step of the path is a dictionary key. -/
def EndsWithKey (path : List PathStep) : Prop :=
  Exists fun name => path.getLast? = some (.key name)

theorem endsWithKey_cons_cons (first second : PathStep) (rest : List PathStep) :
    EndsWithKey (first :: second :: rest) ↔ EndsWithKey (second :: rest) := by
  unfold EndsWithKey
  rw [List.getLast?_cons_cons]

namespace JSONObject

theorem keys_removingFromEntries_sublist (mutableContainers : Bool)
    (entries : List (String × JSONObject)) :
    ((removingFromEntries mutableContainers entries).map Prod.fst).Sublist
      (entries.map Prod.fst) := by
  induction entries with
  | nil => exact List.Sublist.refl _
  | cons entry rest inductionHypothesis =>
      rw [removingFromEntries_cons]
      by_cases isNull : entry.2.isNull
      · rw [if_pos isNull]
        exact inductionHypothesis.cons entry.1
      · rw [if_neg isNull]
        exact inductionHypothesis.cons_cons entry.1

theorem mem_removingFromEntries (mutableContainers : Bool) (entries : List (String × JSONObject))
    (key : String) (result : JSONObject) :
    (key, result) ∈ removingFromEntries mutableContainers entries ↔
      Exists fun value => (key, value) ∈ entries ∧ value ≠ .null ∧
        result = value.removingKeysWithNullValues mutableContainers := by
  induction entries with
  | nil =>
      constructor
      · intro listed
        cases listed
      · rintro ⟨_, listed, _⟩
        cases listed
  | cons entry rest inductionHypothesis =>
      rcases entry with ⟨headKey, headValue⟩
      rw [removingFromEntries_cons]
      by_cases isNull : headValue.isNull
      · rw [if_pos isNull, inductionHypothesis]
        constructor
        · rintro ⟨value, listed, parts⟩
          exact ⟨value, List.mem_cons_of_mem _ listed, parts⟩
        · rintro ⟨value, listed, notNull, rfl⟩
          rcases List.mem_cons.mp listed with same | member
          · cases same
            exact absurd (eq_null_of_isNull isNull) notNull
          · exact ⟨value, member, notNull, rfl⟩
      · rw [if_neg isNull, List.mem_cons, inductionHypothesis]
        constructor
        · rintro (same | ⟨value, listed, parts⟩)
          · cases same
            refine ⟨headValue, List.mem_cons_self, ?_, rfl⟩
            rintro rfl
            exact isNull rfl
          · exact ⟨value, List.mem_cons_of_mem _ listed, parts⟩
        · rintro ⟨value, listed, notNull, rfl⟩
          rcases List.mem_cons.mp listed with same | member
          · cases same
            exact Or.inl rfl
          · exact Or.inr ⟨value, member, notNull, rfl⟩

theorem distinct_removingFromEntries (mutableContainers : Bool)
    {entries : List (String × JSONObject)} (distinct : Distinct entries) :
    Distinct (removingFromEntries mutableContainers entries) :=
  distinct.of_sublist (keys_removingFromEntries_sublist mutableContainers entries)

theorem distinctKeys_of_mem_elements {elements : List JSONObject}
    (distinct : DistinctKeysOfElements elements) {value : JSONObject} (listed : value ∈ elements) :
    value.DistinctKeys := by
  induction elements with
  | nil => cases listed
  | cons head rest inductionHypothesis =>
      rcases List.mem_cons.mp listed with same | member
      · subst same
        exact distinct.1
      · exact inductionHypothesis distinct.2 member

theorem distinctKeys_of_mem_entries {entries : List (String × JSONObject)}
    (distinct : DistinctKeysOfEntries entries) {key : String} {value : JSONObject}
    (listed : (key, value) ∈ entries) : value.DistinctKeys := by
  induction entries with
  | nil => cases listed
  | cons head rest inductionHypothesis =>
      rcases List.mem_cons.mp listed with same | member
      · subst same
        exact distinct.1
      · exact inductionHypothesis distinct.2 member

/-- What a step leads to has distinct keys again. -/
theorem distinctKeys_child {object value : JSONObject} {step : PathStep}
    (distinct : object.DistinctKeys) (leads : object.child step = some value) :
    value.DistinctKeys := by
  cases object with
  | dictionary _ entries =>
      cases step with
      | index => cases leads
      | key name =>
          exact distinctKeys_of_mem_entries distinct.2
            ((lookup_eq_some_iff distinct.1 name value).mp leads)
  | array _ elements =>
      cases step with
      | key => cases leads
      | index position =>
          exact distinctKeys_of_mem_elements distinct (List.mem_of_getElem? leads)
  | _ => cases leads

/-- Where a step leads nowhere, it leads to no value of any kind. -/
theorem leadsNowhere_iff (result : JSONObject) (kept : JSONObject -> Prop) :
    none = some result ↔ Exists fun value => none = some value ∧ kept value := by
  constructor
  · intro leads
    cases leads
  · rintro ⟨_, leads, _⟩
    cases leads

/-- A step into the cleaned tree leads to the cleaned value, unless the step
is a key whose value is null. -/
theorem child_removingKeysWithNullValues (mutableContainers : Bool) {object : JSONObject}
    (distinct : object.DistinctKeys) (step : PathStep) (result : JSONObject) :
    (object.removingKeysWithNullValues mutableContainers).child step = some result ↔
      Exists fun value => object.child step = some value ∧
        ¬ (EndsWithKey [step] ∧ value = .null) ∧
        result = value.removingKeysWithNullValues mutableContainers := by
  cases object with
  | dictionary _ entries =>
      cases step with
      | index => exact leadsNowhere_iff result _
      | key name =>
          have cleanedDistinct := distinct_removingFromEntries mutableContainers distinct.1
          have endsWithKey : EndsWithKey [.key name] := ⟨name, rfl⟩
          change (removingFromEntries mutableContainers entries).lookup name = some result ↔
            Exists fun value => entries.lookup name = some value ∧ _ ∧ _
          rw [lookup_eq_some_iff cleanedDistinct, mem_removingFromEntries]
          simp only [lookup_eq_some_iff distinct.1, endsWithKey, true_and, ne_eq]
  | array _ elements =>
      cases step with
      | key => exact leadsNowhere_iff result _
      | index position =>
          have noKey : ¬ EndsWithKey [.index position] := by
            rintro ⟨name, same⟩
            cases same
          change (removingFromElements mutableContainers elements)[position]? = some result ↔
            Exists fun value => elements[position]? = some value ∧ _ ∧ _
          rw [removingFromElements_eq_map, List.getElem?_map, Option.map_eq_some_iff]
          simp only [noKey, false_and, not_false_eq_true, true_and, eq_comm]
  | _ => exact leadsNowhere_iff result _

/-- What a path leads to has distinct keys again. -/
theorem distinctKeys_atPath {object value : JSONObject} {path : List PathStep}
    (distinct : object.DistinctKeys) (resolves : object.atPath path = some value) :
    value.DistinctKeys := by
  induction path generalizing object with
  | nil =>
      cases resolves
      exact distinct
  | cons step rest inductionHypothesis =>
      rcases Option.bind_eq_some_iff.mp resolves with ⟨between, leads, continues⟩
      exact inductionHypothesis (distinctKeys_child distinct leads) continues

theorem child_null (step : PathStep) : child .null step = none := by
  cases step <;> rfl

/-- A key path into the cleaned tree resolves to the cleaned value, unless its
last step is a key whose value is null. -/
theorem atPath_removingKeysWithNullValues (mutableContainers : Bool) {object : JSONObject}
    (distinct : object.DistinctKeys) (path : List PathStep) (result : JSONObject) :
    (object.removingKeysWithNullValues mutableContainers).atPath path = some result ↔
      Exists fun value => object.atPath path = some value ∧
        ¬ (EndsWithKey path ∧ value = .null) ∧
        result = value.removingKeysWithNullValues mutableContainers := by
  induction path generalizing object with
  | nil =>
      have noKey : ¬ EndsWithKey [] := by
        rintro ⟨name, same⟩
        cases same
      simp only [atPath, Option.some.injEq, noKey, false_and, not_false_eq_true, true_and]
      constructor
      · intro same
        exact ⟨object, rfl, same.symm⟩
      · rintro ⟨value, rfl, same⟩
        exact same.symm
  | cons step rest inductionHypothesis =>
      simp only [atPath, Option.bind_eq_some_iff]
      constructor
      · rintro ⟨between, leads, resolves⟩
        rcases (child_removingKeysWithNullValues mutableContainers distinct step between).mp leads with
          ⟨value, sourceLeads, kept, rfl⟩
        rcases (inductionHypothesis (distinctKeys_child distinct sourceLeads)).mp resolves with
          ⟨last, sourceResolves, lastKept, rfl⟩
        refine ⟨last, ⟨value, sourceLeads, sourceResolves⟩, ?_, rfl⟩
        cases rest with
        | nil =>
            cases sourceResolves
            exact kept
        | cons second rest =>
            rw [endsWithKey_cons_cons]
            exact lastKept
      · rintro ⟨last, ⟨value, sourceLeads, sourceResolves⟩, kept, rfl⟩
        refine ⟨value.removingKeysWithNullValues mutableContainers, ?_, ?_⟩
        · refine (child_removingKeysWithNullValues mutableContainers distinct step _).mpr
            ⟨value, sourceLeads, ?_, rfl⟩
          cases rest with
          | nil =>
              cases sourceResolves
              exact kept
          | cons second rest =>
              rintro ⟨_, rfl⟩
              rw [atPath, child_null] at sourceResolves
              cases sourceResolves
        · refine (inductionHypothesis (distinctKeys_child distinct sourceLeads)).mpr
            ⟨last, sourceResolves, ?_, rfl⟩
          cases rest with
          | nil =>
              rintro ⟨⟨name, same⟩, _⟩
              cases same
          | cons second rest =>
              rw [endsWithKey_cons_cons] at kept
              exact kept

/-! ## The cleaned tree is clean -/

mutual

theorem distinctKeys_removingKeysWithNullValues (mutableContainers : Bool) :
    (object : JSONObject) -> object.DistinctKeys ->
      (object.removingKeysWithNullValues mutableContainers).DistinctKeys
  | .array _ elements, distinct =>
      distinctKeys_removingFromElements mutableContainers elements distinct
  | .dictionary _ entries, distinct =>
      ⟨distinct_removingFromEntries mutableContainers distinct.1,
        distinctKeys_removingFromEntries mutableContainers entries distinct.2⟩
  | .null, _ => trivial
  | .bool _, _ => trivial
  | .number _, _ => trivial
  | .string _, _ => trivial

theorem distinctKeys_removingFromElements (mutableContainers : Bool) :
    (elements : List JSONObject) -> DistinctKeysOfElements elements ->
      DistinctKeysOfElements (removingFromElements mutableContainers elements)
  | [], _ => trivial
  | value :: rest, distinct =>
      ⟨distinctKeys_removingKeysWithNullValues mutableContainers value distinct.1,
        distinctKeys_removingFromElements mutableContainers rest distinct.2⟩

theorem distinctKeys_removingFromEntries (mutableContainers : Bool) :
    (entries : List (String × JSONObject)) -> DistinctKeysOfEntries entries ->
      DistinctKeysOfEntries (removingFromEntries mutableContainers entries)
  | [], _ => trivial
  | (key, value) :: rest, distinct => by
      have atRest := distinctKeys_removingFromEntries mutableContainers rest distinct.2
      rw [removingFromEntries_cons]
      by_cases isNull : value.isNull
      · rw [if_pos isNull]
        exact atRest
      · rw [if_neg isNull]
        exact ⟨distinctKeys_removingKeysWithNullValues mutableContainers value distinct.1, atRest⟩

end

mutual

/-- A second removal finds nothing to remove. -/
theorem removingKeysWithNullValues_twice (mutableContainers : Bool) : (object : JSONObject) ->
    (object.removingKeysWithNullValues mutableContainers).removingKeysWithNullValues
        mutableContainers =
      object.removingKeysWithNullValues mutableContainers
  | .array _ elements =>
      congrArg (array mutableContainers) (removingFromElements_twice mutableContainers elements)
  | .dictionary _ entries =>
      congrArg (dictionary mutableContainers) (removingFromEntries_twice mutableContainers entries)
  | .null => rfl
  | .bool _ => rfl
  | .number _ => rfl
  | .string _ => rfl

theorem removingFromElements_twice (mutableContainers : Bool) : (elements : List JSONObject) ->
    removingFromElements mutableContainers (removingFromElements mutableContainers elements) =
      removingFromElements mutableContainers elements
  | [] => rfl
  | value :: rest =>
      congrArg₂ List.cons (removingKeysWithNullValues_twice mutableContainers value)
        (removingFromElements_twice mutableContainers rest)

theorem removingFromEntries_twice (mutableContainers : Bool) :
    (entries : List (String × JSONObject)) ->
      removingFromEntries mutableContainers (removingFromEntries mutableContainers entries) =
        removingFromEntries mutableContainers entries
  | [] => rfl
  | (key, value) :: rest => by
      have atValue := removingKeysWithNullValues_twice mutableContainers value
      have atRest := removingFromEntries_twice mutableContainers rest
      rw [removingFromEntries_cons]
      by_cases isNull : value.isNull
      · rw [if_pos isNull]
        exact atRest
      · rw [if_neg isNull, removingFromEntries_cons, isNull_removingKeysWithNullValues,
          if_neg isNull, atValue, atRest]

end

end JSONObject

/-- What the removal of null values promises of its result, place by place:
the clauses compare the result with the source along every key path. -/
structure NullValuesRemoved (readingOptions : NSJSONReadingOptions) (source result : JSONObject) :
    Prop where
  /-- No dictionary at any depth has a null value. -/
  noNullValues : forall path isMutable entries,
    result.atPath path = some (.dictionary isMutable entries) ->
      forall key value, (key, value) ∈ entries -> value ≠ .null
  /-- Every array has the cleaned elements of its source array in their order. -/
  arrays : forall path isMutable elements,
    result.atPath path = some (.array isMutable elements) ->
      Exists fun wasMutable => Exists fun sourceElements =>
        source.atPath path = some (.array wasMutable sourceElements) ∧
        elements = sourceElements.map
          (JSONObject.ghhJSONObjectByRemovingKeysWithNullValues readingOptions)
  /-- Every dictionary has the keys of its source dictionary whose values are
  not null, each with the cleaned value. -/
  dictionaries : forall path isMutable entries,
    result.atPath path = some (.dictionary isMutable entries) ->
      Exists fun wasMutable => Exists fun sourceEntries =>
        source.atPath path = some (.dictionary wasMutable sourceEntries) ∧
        (forall key, key ∈ entries.map Prod.fst ↔
          Exists fun value => (key, value) ∈ sourceEntries ∧ value ≠ .null) ∧
        (forall key value, (key, value) ∈ entries ->
          Exists fun sourceValue => (key, sourceValue) ∈ sourceEntries ∧
            value = JSONObject.ghhJSONObjectByRemovingKeysWithNullValues readingOptions sourceValue)
  /-- Every container of the source that a path reaches stays in its place. -/
  containers : forall path container, container.isContainer = true ->
    source.atPath path = some container ->
      result.atPath path =
        some (JSONObject.ghhJSONObjectByRemovingKeysWithNullValues readingOptions container)
  /-- A path leads to the same leaf as before, unless its last step is a key
  that held a null value. -/
  leaves : forall path leaf, leaf.isContainer = false ->
    (result.atPath path = some leaf ↔
      source.atPath path = some leaf ∧ ¬ (EndsWithKey path ∧ leaf = .null))
  /-- A second removal changes nothing. -/
  idempotent :
    JSONObject.ghhJSONObjectByRemovingKeysWithNullValues readingOptions result = result
  /-- The containers at every depth are mutable when the option asks for it. -/
  mutableArrays : forall path isMutable elements,
    result.atPath path = some (.array isMutable elements) ->
      (isMutable = true ↔ readingOptions &&& NSJSONReadingMutableContainers ≠ 0)
  mutableDictionaries : forall path isMutable entries,
    result.atPath path = some (.dictionary isMutable entries) ->
      (isMutable = true ↔ readingOptions &&& NSJSONReadingMutableContainers ≠ 0)

namespace JSONObject

theorem wantsMutableContainers_iff (readingOptions : NSJSONReadingOptions) :
    wantsMutableContainers readingOptions = true ↔
      readingOptions &&& NSJSONReadingMutableContainers ≠ 0 :=
  bne_iff_ne

/-- An array of the cleaned tree is a cleaned array of the source. -/
theorem atPath_array_of_removing {mutableContainers isMutable : Bool} {object : JSONObject}
    {path : List PathStep} {elements : List JSONObject} (distinct : object.DistinctKeys)
    (resolves : (object.removingKeysWithNullValues mutableContainers).atPath path =
      some (.array isMutable elements)) :
    isMutable = mutableContainers ∧
      Exists fun wasMutable => Exists fun sourceElements =>
        object.atPath path = some (.array wasMutable sourceElements) ∧
        elements = removingFromElements mutableContainers sourceElements := by
  rcases (atPath_removingKeysWithNullValues mutableContainers distinct path _).mp resolves with
    ⟨value, sourceResolves, _, same⟩
  cases value with
  | array wasMutable sourceElements =>
      cases same
      exact ⟨rfl, wasMutable, sourceElements, sourceResolves, rfl⟩
  | _ => cases same

/-- A dictionary of the cleaned tree is a cleaned dictionary of the source. -/
theorem atPath_dictionary_of_removing {mutableContainers isMutable : Bool} {object : JSONObject}
    {path : List PathStep} {entries : List (String × JSONObject)} (distinct : object.DistinctKeys)
    (resolves : (object.removingKeysWithNullValues mutableContainers).atPath path =
      some (.dictionary isMutable entries)) :
    isMutable = mutableContainers ∧
      Exists fun wasMutable => Exists fun sourceEntries =>
        object.atPath path = some (.dictionary wasMutable sourceEntries) ∧
        entries = removingFromEntries mutableContainers sourceEntries := by
  rcases (atPath_removingKeysWithNullValues mutableContainers distinct path _).mp resolves with
    ⟨value, sourceResolves, _, same⟩
  cases value with
  | dictionary wasMutable sourceEntries =>
      cases same
      exact ⟨rfl, wasMutable, sourceEntries, sourceResolves, rfl⟩
  | _ => cases same

theorem removingKeysWithNullValues_eq_null_iff (mutableContainers : Bool) (object : JSONObject) :
    object.removingKeysWithNullValues mutableContainers = .null ↔ object = .null := by
  cases object <;> simp [removingKeysWithNullValues]

/-- A value of the source and a leaf of the result that agree are the same
leaf. -/
theorem removingKeysWithNullValues_eq_leaf_iff (mutableContainers : Bool) {object leaf : JSONObject}
    (isLeaf : leaf.isContainer = false) :
    leaf = object.removingKeysWithNullValues mutableContainers ↔ object = leaf := by
  constructor
  · intro same
    have objectLeaf : object.isContainer = false := by
      rw [← isContainer_removingKeysWithNullValues mutableContainers object, ← same]
      exact isLeaf
    rw [same, removingKeysWithNullValues_leaf mutableContainers objectLeaf]
  · rintro rfl
    exact (removingKeysWithNullValues_leaf mutableContainers isLeaf).symm

/-- The keys of a cleaned dictionary. -/
theorem mem_keys_removingFromEntries (mutableContainers : Bool)
    (entries : List (String × JSONObject)) (key : String) :
    key ∈ (removingFromEntries mutableContainers entries).map Prod.fst ↔
      Exists fun value => (key, value) ∈ entries ∧ value ≠ .null := by
  rw [List.mem_map]
  constructor
  · rintro ⟨⟨_, result⟩, listed, rfl⟩
    rcases (mem_removingFromEntries mutableContainers entries _ result).mp listed with
      ⟨value, sourceListed, notNull, _⟩
    exact ⟨value, sourceListed, notNull⟩
  · rintro ⟨value, sourceListed, notNull⟩
    refine ⟨(key, value.removingKeysWithNullValues mutableContainers), ?_, rfl⟩
    exact (mem_removingFromEntries mutableContainers entries key _).mpr
      ⟨value, sourceListed, notNull, rfl⟩

end JSONObject

open JSONObject in
/-- For every tree and every set of options the result of the walk keeps all
that `NullValuesRemoved` says. -/
theorem nullValuesRemoved (tree : JSONTree) (readingOptions : NSJSONReadingOptions) :
    NullValuesRemoved readingOptions tree.object
      (ghhJSONObjectByRemovingKeysWithNullValues readingOptions tree.object) := by
  rcases tree with ⟨object, distinct⟩
  have walked {part : JSONObject} (partDistinct : part.DistinctKeys) :=
    ghh_eq_removingKeysWithNullValues readingOptions part partDistinct
  have atElement {path : List PathStep} {isMutable : Bool} {elements : List JSONObject}
      (resolves : object.atPath path = some (.array isMutable elements)) :
      removingFromElements (wantsMutableContainers readingOptions) elements =
        elements.map (ghhJSONObjectByRemovingKeysWithNullValues readingOptions) := by
    rw [removingFromElements_eq_map]
    apply List.map_congr_left
    intro element listed
    exact (walked (distinctKeys_of_mem_elements (distinctKeys_atPath distinct resolves) listed)).symm
  rw [walked distinct]
  constructor
  · intro path isMutable entries resolves key value listed
    rcases (atPath_dictionary_of_removing distinct resolves).2 with ⟨_, sourceEntries, _, rfl⟩
    rcases (mem_removingFromEntries _ sourceEntries key value).mp listed with
      ⟨sourceValue, _, notNull, rfl⟩
    rw [ne_eq, removingKeysWithNullValues_eq_null_iff]
    exact notNull
  · intro path isMutable elements resolves
    rcases (atPath_array_of_removing distinct resolves).2 with
      ⟨wasMutable, sourceElements, sourceResolves, rfl⟩
    exact ⟨wasMutable, sourceElements, sourceResolves, atElement sourceResolves⟩
  · intro path isMutable entries resolves
    rcases (atPath_dictionary_of_removing distinct resolves).2 with
      ⟨wasMutable, sourceEntries, sourceResolves, rfl⟩
    refine ⟨wasMutable, sourceEntries, sourceResolves, mem_keys_removingFromEntries _ _, ?_⟩
    intro key value listed
    rcases (mem_removingFromEntries _ sourceEntries key value).mp listed with
      ⟨sourceValue, sourceListed, _, rfl⟩
    have partDistinct := distinctKeys_of_mem_entries
      (distinctKeys_atPath distinct sourceResolves).2 sourceListed
    exact ⟨sourceValue, sourceListed, (walked partDistinct).symm⟩
  · intro path container isContainer sourceResolves
    rw [walked (distinctKeys_atPath distinct sourceResolves)]
    refine (atPath_removingKeysWithNullValues _ distinct path _).mpr
      ⟨container, sourceResolves, ?_, rfl⟩
    rintro ⟨_, rfl⟩
    cases isContainer
  · intro path leaf isLeaf
    rw [atPath_removingKeysWithNullValues _ distinct]
    simp only [removingKeysWithNullValues_eq_leaf_iff _ isLeaf]
    constructor
    · rintro ⟨_, sourceResolves, kept, rfl⟩
      exact ⟨sourceResolves, kept⟩
    · rintro ⟨sourceResolves, kept⟩
      exact ⟨leaf, sourceResolves, kept, rfl⟩
  · rw [walked (distinctKeys_removingKeysWithNullValues _ object distinct)]
    exact removingKeysWithNullValues_twice _ object
  · intro path isMutable elements resolves
    rw [(atPath_array_of_removing distinct resolves).1]
    exact wantsMutableContainers_iff readingOptions
  · intro path isMutable entries resolves
    rw [(atPath_dictionary_of_removing distinct resolves).1]
    exact wantsMutableContainers_iff readingOptions

/-- A dictionary with nulls in it, in an array and in a dictionary inside the
array. -/
def nestedNulls : JSONTree where
  object := .dictionary false
    [("a", .null), ("b", .array false [.null, .dictionary false [("c", .null)]])]
  distinctKeys := by
    have outer : ["a", "b"].Nodup := by decide
    exact ⟨outer, trivial, ⟨trivial, ⟨List.nodup_singleton "c", trivial, trivial⟩, trivial⟩, trivial⟩

/-- A null goes from a dictionary inside an array and stays in the array. -/
theorem nullValuesRemoved_nestedNulls :
    NullValuesRemoved NSJSONReadingMutableContainers nestedNulls.object
      (.dictionary true [("b", .array true [.null, .dictionary true []])]) :=
  nullValuesRemoved nestedNulls NSJSONReadingMutableContainers

end Network
end HowBigDemo
