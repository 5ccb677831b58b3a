import Mathlib.Data.List.Basic

namespace Library

universe u

/-!
# Bounded queues that drop their oldest entries

A waiting line of bounded length that makes room by dropping its oldest
entries always holds the newest part of what it was given.  `keepNewest`
is that part and `discarded` what is lost; the composition law says that
trimming after every arrival keeps the same entries as trimming once.

A consumer that serves from the front until one entry asks it to stop is
`serve`.  It is characterized by the three facts of `ShortestStop`, which
determine the served entries.
-/

variable {α : Type u}

/-- The newest `bound` entries, or all of them if there are fewer. -/
def keepNewest (bound : Nat) (entries : List α) : List α :=
  entries.drop (entries.length - bound)

/-- The older entries that do not fit within `bound`. -/
def discarded (bound : Nat) (entries : List α) : List α :=
  entries.take (entries.length - bound)

theorem discarded_append_keepNewest (bound : Nat) (entries : List α) :
    discarded bound entries ++ keepNewest bound entries = entries :=
  List.take_append_drop _ _

theorem length_keepNewest (bound : Nat) (entries : List α) :
    (keepNewest bound entries).length = min bound entries.length := by
  rw [keepNewest, List.length_drop]
  omega

theorem length_keepNewest_le (bound : Nat) (entries : List α) :
    (keepNewest bound entries).length ≤ bound := by
  rw [length_keepNewest]
  exact Nat.min_le_left _ _

theorem keepNewest_of_length_le {bound : Nat} {entries : List α}
    (fits : entries.length ≤ bound) : keepNewest bound entries = entries := by
  rw [keepNewest, Nat.sub_eq_zero_of_le fits, List.drop_zero]

theorem discarded_of_length_le {bound : Nat} {entries : List α}
    (fits : entries.length ≤ bound) : discarded bound entries = [] := by
  rw [discarded, Nat.sub_eq_zero_of_le fits, List.take_zero]

/-- Trimming before more entries arrive does not change the final line. -/
theorem keepNewest_append_keepNewest (bound : Nat) (entries arrivals : List α) :
    keepNewest bound (keepNewest bound entries ++ arrivals) =
      keepNewest bound (entries ++ arrivals) := by
  by_cases fits : entries.length ≤ bound
  · rw [keepNewest_of_length_le fits]
  · have kept := length_keepNewest bound entries
    have surplus : entries.length - bound ≤ (entries ++ arrivals).length - bound := by
      rw [List.length_append]
      omega
    have trimmed : keepNewest bound entries ++ arrivals =
        (entries ++ arrivals).drop (entries.length - bound) := by
      rw [keepNewest, List.drop_append_of_le_length (Nat.sub_le _ _)]
    rw [trimmed, keepNewest, keepNewest, List.drop_drop, List.length_drop]
    congr 1
    omega

/-- The losses of trimming in two stages are the losses of trimming once. -/
theorem discarded_append_discarded (bound : Nat) (entries arrivals : List α) :
    discarded bound entries ++ discarded bound (keepNewest bound entries ++ arrivals) =
      discarded bound (entries ++ arrivals) := by
  apply (List.append_left_inj (keepNewest bound (entries ++ arrivals))).mp
  rw [discarded_append_keepNewest, ← keepNewest_append_keepNewest, List.append_assoc,
    discarded_append_keepNewest, ← List.append_assoc, discarded_append_keepNewest]

/-- When the arrivals alone fit, only earlier entries are lost: those with
too many entries behind them. -/
theorem mem_discarded_append_iff {bound : Nat} {entries arrivals : List α}
    (fits : arrivals.length ≤ bound) (entry : α) :
    entry ∈ discarded bound (entries ++ arrivals) ↔
      Exists fun before => Exists fun after =>
        entries = before ++ entry :: after ∧ bound ≤ after.length + arrivals.length := by
  have short : (entries ++ arrivals).length - bound ≤ entries.length := by
    rw [List.length_append]
    omega
  rw [discarded, List.take_append_of_le_length short, List.length_append]
  constructor
  · intro member
    rcases List.mem_iff_append.mp member with ⟨before, after, split⟩
    refine ⟨before, after ++ entries.drop (entries.length + arrivals.length - bound), ?_, ?_⟩
    · calc
        entries = entries.take (entries.length + arrivals.length - bound) ++
            entries.drop (entries.length + arrivals.length - bound) :=
          (List.take_append_drop _ _).symm
        _ = before ++ entry :: (after ++ entries.drop (entries.length + arrivals.length - bound)) := by
          rw [split, List.append_assoc, List.cons_append]
    · have taken := congrArg List.length split
      rw [List.length_take, List.length_append, List.length_cons] at taken
      rw [List.length_append, List.length_drop]
      omega
  · rintro ⟨before, after, split, behind⟩
    subst split
    have reach : before.length + 1 ≤
        (before ++ entry :: after).length + arrivals.length - bound := by
      rw [List.length_append, List.length_cons]
      omega
    have early : (before ++ entry :: after).take (before.length + 1) = before ++ [entry] := by
      rw [List.take_append, List.take_of_length_le (Nat.le_succ _), Nat.add_sub_cancel_left]
      rfl
    apply List.take_subset_take_left (before ++ entry :: after) reach
    rw [early]
    exact List.mem_append_right before (List.mem_singleton_self entry)

/-- Arrivals that fit are kept. -/
theorem mem_keepNewest_append_right {bound : Nat} {entries arrivals : List α}
    (fits : arrivals.length ≤ bound) {entry : α} (member : entry ∈ arrivals) :
    entry ∈ keepNewest bound (entries ++ arrivals) := by
  have short : (entries ++ arrivals).length - bound ≤ entries.length := by
    rw [List.length_append]
    omega
  rw [keepNewest, List.drop_append_of_le_length short]
  exact List.mem_append_right _ member

/-! ## Serving from the front -/

/-- Serve from the front until an entry that stops the service, inclusive.
The result is what was served and what is left. -/
def serve (stop : α -> Bool) : List α -> List α × List α
  | [] => ([], [])
  | entry :: rest =>
      if stop entry then ([entry], rest)
      else (entry :: (serve stop rest).1, (serve stop rest).2)

/-- The served entries are the shortest part of the line that ends with a
stopping entry, or all of it when no entry stops the service. -/
structure ShortestStop (stop : α -> Bool) (line served left : List α) : Prop where
  split : served ++ left = line
  early : forall entry, entry ∈ served.dropLast -> stop entry = false
  ended : (Exists fun entry => served.getLast? = some entry ∧ stop entry = true) ∨
    (left = [] ∧ forall entry, entry ∈ line -> stop entry = false)

theorem serve_shortestStop (stop : α -> Bool) (line : List α) :
    ShortestStop stop line (serve stop line).1 (serve stop line).2 := by
  induction line with
  | nil =>
      refine ⟨rfl, ?_, Or.inr ⟨rfl, ?_⟩⟩ <;> intro entry member <;> cases member
  | cons entry rest inductionHypothesis =>
      cases stopped : stop entry with
      | true =>
          simp only [serve, stopped, if_true]
          refine ⟨rfl, ?_, Or.inl ⟨entry, rfl, stopped⟩⟩
          intro other member
          cases member
      | false =>
          simp only [serve, stopped, Bool.false_eq_true, if_false]
          refine ⟨congrArg (List.cons entry) inductionHypothesis.split, ?_, ?_⟩
          · intro other member
            cases tail : (serve stop rest).1 with
            | nil =>
                rw [tail] at member
                cases member
            | cons second later =>
                rw [tail, List.dropLast_cons_of_ne_nil (List.cons_ne_nil _ _)] at member
                cases List.mem_cons.mp member with
                | inl same => exact same ▸ stopped
                | inr inTail =>
                    apply inductionHypothesis.early
                    rw [tail]
                    exact inTail
          · rcases inductionHypothesis.ended with ⟨last, final, stops⟩ | ⟨empty, quiet⟩
            · refine Or.inl ⟨last, ?_, stops⟩
              rw [List.getLast?_cons, final]
              rfl
            · refine Or.inr ⟨empty, ?_⟩
              intro other member
              cases List.mem_cons.mp member with
              | inl same => exact same ▸ stopped
              | inr inRest => exact quiet other inRest

/-- A nonempty line always has its first entry served. -/
theorem serve_ne_nil (stop : α -> Bool) {line : List α} (nonempty : line ≠ []) :
    (serve stop line).1 ≠ [] := by
  cases line with
  | nil => exact absurd rfl nonempty
  | cons entry rest =>
      rw [serve]
      cases stop entry <;> exact List.cons_ne_nil _ _

end Library
