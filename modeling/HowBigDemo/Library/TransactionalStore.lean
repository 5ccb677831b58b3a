import Mathlib.Data.List.Basic

namespace Library

universe u v w

/-!
# Stores with transactions

A connection to a store executes statements one by one, each of them durable
at once, or collects them in a transaction that a commit makes durable and a
rollback forgets.  A store may refuse every command, and an error may end the
transaction that is open.

`Answers` lists what a store may do with one command.  A store is lawful if
it does nothing else and leaves the other connections alone.
-/

inductive Command (Statement : Type u)
  | begin
  | commit
  | rollback
  | execute (statement : Statement)
  deriving DecidableEq

/-- What is durable, and what the open transaction of a connection has
collected. -/
structure Ledger (Statement : Type u) where
  journal : List Statement
  pending : Option (List Statement)

inductive Answers {Statement : Type u} :
    Command Statement -> Bool -> Ledger Statement -> Ledger Statement -> Prop
  | begun (journal : List Statement) : Answers .begin true ⟨journal, none⟩ ⟨journal, some []⟩
  | committed (journal collected : List Statement) :
      Answers .commit true ⟨journal, some collected⟩ ⟨journal ++ collected, none⟩
  | rolledBack (journal collected : List Statement) :
      Answers .rollback true ⟨journal, some collected⟩ ⟨journal, none⟩
  | executed (journal : List Statement) (statement : Statement) :
      Answers (.execute statement) true ⟨journal, none⟩ ⟨journal ++ [statement], none⟩
  | collected (journal collected : List Statement) (statement : Statement) :
      Answers (.execute statement) true ⟨journal, some collected⟩
        ⟨journal, some (collected ++ [statement])⟩
  | refused (command : Command Statement) (ledger : Ledger Statement) :
      Answers command false ledger ledger
  | lost (command : Command Statement) (journal collected : List Statement) :
      Answers command false ⟨journal, some collected⟩ ⟨journal, none⟩

namespace Answers

variable {Statement : Type u} {before after : Ledger Statement}

/-- An error changes nothing that is durable, and ends a transaction or
leaves it as it is. -/
theorem of_failed {command : Command Statement} (answers : Answers command false before after) :
    after.journal = before.journal ∧
      (after.pending = before.pending ∨ before.pending.isSome = true ∧ after.pending = none) := by
  cases answers with
  | refused => exact ⟨rfl, Or.inl rfl⟩
  | lost => exact ⟨rfl, Or.inr ⟨rfl, rfl⟩⟩

theorem of_begun (answers : Answers .begin true before after) :
    before.pending = none ∧ after.journal = before.journal ∧ after.pending = some [] := by
  cases answers
  exact ⟨rfl, rfl, rfl⟩

theorem of_committed (answers : Answers .commit true before after) :
    Exists fun collected => before.pending = some collected ∧
      after.journal = before.journal ++ collected ∧ after.pending = none := by
  cases answers with
  | committed journal collected => exact ⟨collected, rfl, rfl, rfl⟩

theorem of_rolledBack (answers : Answers .rollback true before after) :
    after.journal = before.journal ∧ after.pending = none := by
  cases answers
  exact ⟨rfl, rfl⟩

theorem of_collected {statement : Statement} {collected : List Statement}
    (answers : Answers (.execute statement) true before after) (inside : before.pending = some collected) :
    after.journal = before.journal ∧ after.pending = some (collected ++ [statement]) := by
  cases answers with
  | executed => cases inside
  | collected =>
      cases inside
      exact ⟨rfl, rfl⟩

end Answers

structure TransactionalStore (World : Type u) (Connection : Type v) (Statement : Type w) where
  perform : Command Statement -> Connection -> World -> World × Bool
  journal : World -> List Statement
  pending : World -> Connection -> Option (List Statement)

namespace TransactionalStore

variable {World : Type u} {Connection : Type v} {Statement : Type w}
variable (store : TransactionalStore World Connection Statement)

def ledger (world : World) (connection : Connection) : Ledger Statement :=
  ⟨store.journal world, store.pending world connection⟩

structure Lawful : Prop where
  answers : forall command connection world,
    Answers command (store.perform command connection world).2 (store.ledger world connection)
      (store.ledger (store.perform command connection world).1 connection)
  others : forall command connection world other, other ≠ connection ->
    store.pending (store.perform command connection world).1 other = store.pending world other

/-- The command has ended the transaction with an error. -/
def loses (command : Command Statement) (connection : Connection) (world : World) : Bool :=
  !(store.perform command connection world).2 && (store.pending world connection).isSome &&
    (store.pending (store.perform command connection world).1 connection).isNone

variable {store}

theorem Lawful.answered (lawful : store.Lawful) {command : Command Statement} {connection : Connection}
    {world : World} {answer : Bool} (answered : (store.perform command connection world).2 = answer) :
    Answers command answer (store.ledger world connection)
      (store.ledger (store.perform command connection world).1 connection) :=
  answered ▸ lawful.answers command connection world

/-! ## A store that refuses on request -/

/-- A store in memory and whether it is to refuse the commands to come. -/
structure Scripted (Connection : Type v) (Statement : Type w) where
  journal : List Statement
  pending : Connection -> Option (List Statement)
  refusals : List Bool

variable [DecidableEq Connection]

def Scripted.set (world : Scripted Connection Statement) (connection : Connection)
    (collected : Option (List Statement)) : Scripted Connection Statement :=
  { world with
    pending := fun other => if other = connection then collected else world.pending other }

def scripted : TransactionalStore (Scripted Connection Statement) Connection Statement where
  journal := Scripted.journal
  pending := Scripted.pending
  perform command connection world :=
    let next := { world with refusals := world.refusals.tail }
    if world.refusals.headD false then (next, false)
    else
      match command, world.pending connection with
      | .begin, none => (next.set connection (some []), true)
      | .commit, some collected =>
        ({ next with journal := world.journal ++ collected }.set connection none, true)
      | .rollback, some _ => (next.set connection none, true)
      | .execute statement, none => ({ next with journal := world.journal ++ [statement] }, true)
      | .execute statement, some collected =>
        (next.set connection (some (collected ++ [statement])), true)
      | _, _ => (next, false)

theorem scripted_lawful :
    (scripted : TransactionalStore (Scripted Connection Statement) Connection Statement).Lawful where
  answers := by
    rintro command connection ⟨journal, pending, refusals⟩
    unfold ledger scripted
    simp only
    split
    · exact Answers.refused _ _
    · cases command with
      | begin =>
          cases inside : pending connection <;> simp only [Scripted.set, if_true, inside]
          · exact Answers.begun _
          · exact Answers.refused _ _
      | commit =>
          cases inside : pending connection <;> simp only [Scripted.set, if_true, inside]
          · exact Answers.refused _ _
          · exact Answers.committed _ _
      | rollback =>
          cases inside : pending connection <;> simp only [Scripted.set, if_true, inside]
          · exact Answers.refused _ _
          · exact Answers.rolledBack _ _
      | execute statement =>
          cases inside : pending connection <;> simp only [Scripted.set, if_true, inside]
          · exact Answers.executed _ _
          · exact Answers.collected _ _ _
  others := by
    rintro command connection ⟨journal, pending, refusals⟩ other different
    unfold scripted
    simp only
    split
    · rfl
    · cases command <;> cases inside : pending connection <;>
        simp only [Scripted.set, if_neg different]

end TransactionalStore
end Library
