import Mathlib.Data.List.Nodup

namespace Library
namespace Dictionary

/-!
# Dictionaries as lists of entries

A dictionary is the list of its entries, in the order in which it enumerates
its keys.  No key stands twice.  A mutable dictionary is edited by removing
the entry of a key and by giving a key a new value, which leaves the entries
of the other keys where they are.
-/

variable {Key : Type u} {Value : Type v}

/-- No two entries have the same key. -/
def Distinct (entries : List (Key × Value)) : Prop :=
  (entries.map Prod.fst).Nodup

theorem distinct_cons {entry : Key × Value} {rest : List (Key × Value)} :
    Distinct (entry :: rest) ↔ (forall other, other ∈ rest -> other.1 ≠ entry.1) ∧ Distinct rest := by
  unfold Distinct
  rw [List.map_cons, List.nodup_cons]
  constructor
  · intro distinct
    refine ⟨?_, distinct.2⟩
    intro other listed sameKey
    exact distinct.1 (List.mem_map.mpr ⟨other, listed, sameKey⟩)
  · intro parts
    refine ⟨?_, parts.2⟩
    intro listed
    rcases List.mem_map.mp listed with ⟨other, member, sameKey⟩
    exact parts.1 other member sameKey

/-- A part of a dictionary, read in order, is a dictionary. -/
theorem Distinct.of_sublist {part entries : List (Key × Value)} (distinct : Distinct entries)
    (isPart : (part.map Prod.fst).Sublist (entries.map Prod.fst)) : Distinct part :=
  List.Nodup.sublist isPart distinct

/-- In a dictionary every key of an entry stands apart from the keys before it. -/
theorem Distinct.key_ne {before after : List (Key × Value)} {entry : Key × Value}
    (distinct : Distinct (before ++ entry :: after)) :
    (forall other, other ∈ before -> other.1 ≠ entry.1) ∧
      (forall other, other ∈ after -> other.1 ≠ entry.1) := by
  unfold Distinct at distinct
  rw [List.map_append, List.nodup_append'] at distinct
  rcases distinct with ⟨_, atEntry, apart⟩
  refine ⟨?_, (distinct_cons.mp atEntry).1⟩
  intro other member sameKey
  have listed : other.1 ∈ before.map Prod.fst := List.mem_map.mpr ⟨other, member, rfl⟩
  exact apart listed (sameKey ▸ List.mem_cons_self)

/-- A key reads the value of its only entry. -/
theorem lookup_eq_some_iff [BEq Key] [LawfulBEq Key] {entries : List (Key × Value)}
    (distinct : Distinct entries) (key : Key) (value : Value) :
    entries.lookup key = some value ↔ (key, value) ∈ entries := by
  induction entries with
  | nil => simp
  | cons head rest inductionHypothesis =>
      have parts := distinct_cons.mp distinct
      rcases head with ⟨headKey, headValue⟩
      by_cases atHead : key = headKey
      · subst atHead
        rw [List.lookup_cons_self]
        constructor
        · intro read
          cases read
          exact List.mem_cons_self
        · intro listed
          rcases List.mem_cons.mp listed with same | member
          · cases same
            rfl
          · exact absurd rfl (parts.1 (key, value) member)
      · have differ : (key == headKey) = false := beq_false_of_ne atHead
        rw [List.lookup_cons, differ]
        change rest.lookup key = some value ↔ _
        rw [inductionHypothesis parts.2]
        constructor
        · intro member
          exact List.mem_cons_of_mem _ member
        · intro listed
          rcases List.mem_cons.mp listed with same | member
          · cases same
            exact absurd rfl atHead
          · exact member

/-! ## Editing -/

variable [DecidableEq Key]

/-- The dictionary without a key. -/
def removeObject (entries : List (Key × Value)) (key : Key) : List (Key × Value) :=
  entries.filter (fun entry => decide (entry.1 ≠ key))

/-- The dictionary with a new value for a key.  A key that it does not have
gets an entry at the end. -/
def setObject (entries : List (Key × Value)) (key : Key) (value : Value) : List (Key × Value) :=
  match entries with
  | [] => [(key, value)]
  | entry :: rest =>
      if entry.1 = key then (key, value) :: rest
      else entry :: setObject rest key value

/-- A key that is set reads its value, and the others read what they did. -/
theorem lookup_setObject (entries : List (Key × Value)) (key other : Key) (value : Value) :
    (setObject entries key value).lookup other =
      if other = key then some value else entries.lookup other := by
  induction entries with
  | nil =>
      rw [setObject, List.lookup_cons]
      by_cases same : other = key
      · rw [if_pos same, beq_iff_eq.mpr same]
      · rw [if_neg same, beq_false_of_ne same]
  | cons entry rest inductionHypothesis =>
      rcases entry with ⟨head, headValue⟩
      rw [setObject]
      split
      · next isHead =>
          have isKey : head = key := isHead
          subst isKey
          rw [List.lookup_cons, List.lookup_cons]
          by_cases same : other = head
          · rw [if_pos same, beq_iff_eq.mpr same]
          · rw [if_neg same, beq_false_of_ne same]
      · next differs =>
          have notKey : head ≠ key := differs
          rw [List.lookup_cons, List.lookup_cons, inductionHypothesis]
          by_cases same : other = head
          · subst same
            rw [beq_self_eq_true, if_neg notKey, if_neg notKey]
          · rw [beq_false_of_ne same]

theorem lookup_removeObject (entries : List (Key × Value)) (key other : Key) :
    (removeObject entries key).lookup other = if other = key then none else entries.lookup other := by
  unfold removeObject
  induction entries with
  | nil =>
      rw [List.filter_nil, List.lookup_nil]
      split <;> rfl
  | cons entry rest inductionHypothesis =>
      rcases entry with ⟨head, headValue⟩
      rw [List.filter_cons]
      by_cases isKey : head = key
      · subst isKey
        rw [if_neg (by simp), inductionHypothesis, List.lookup_cons]
        by_cases same : other = head
        · rw [if_pos same, if_pos same]
        · rw [if_neg same, if_neg same, beq_false_of_ne same]
      · rw [if_pos (decide_eq_true isKey), List.lookup_cons, inductionHypothesis, List.lookup_cons]
        by_cases same : other = head
        · subst same
          rw [beq_self_eq_true, if_neg isKey, if_neg isKey]
        · rw [beq_false_of_ne same]

/-- Removing a key takes out its entry and no other. -/
theorem removeObject_at {before after : List (Key × Value)} {entry : Key × Value}
    (distinct : Distinct (before ++ entry :: after)) :
    removeObject (before ++ entry :: after) entry.1 = before ++ after := by
  have others := distinct.key_ne
  unfold removeObject
  rw [List.filter_append, List.filter_cons_of_neg (by simp)]
  rw [List.filter_eq_self.mpr (fun other member => decide_eq_true (others.1 other member))]
  rw [List.filter_eq_self.mpr (fun other member => decide_eq_true (others.2 other member))]

/-- Setting the value of a key changes its entry and no other. -/
theorem setObject_at {before after : List (Key × Value)} {entry : Key × Value} (value : Value)
    (distinct : Distinct (before ++ entry :: after)) :
    setObject (before ++ entry :: after) entry.1 value = before ++ (entry.1, value) :: after := by
  induction before with
  | nil => exact if_pos rfl
  | cons head rest inductionHypothesis =>
      have headDiffers := distinct.key_ne.1 head List.mem_cons_self
      have restDistinct : Distinct (rest ++ entry :: after) := (distinct_cons.mp distinct).2
      rw [List.cons_append, setObject, if_neg headDiffers, inductionHypothesis restDistinct]
      rfl

end Dictionary
end Library
