import Mathlib.Algebra.GroupWithZero.Nat
import HowBigDemo.Library.EventSystem

namespace Library

universe u

/-!
# Sources that are read in pieces

The purpose of an input stream: a sequence of items that is opened, read in
pieces of any size up to a packet limit and closed.  A read takes as much as
fits from what is left, so the pieces of a run, put together, are the first
part of the sequence.
-/

/-- What is left of a source, and whether it can be read. -/
structure ByteSource (Byte : Type u) where
  remaining : List Byte
  isOpen : Bool

inductive StreamCall
  | open
  | read (size : Nat)
  | close

namespace ByteSource

variable {Byte : Type u}

/-- A read answers with what it took. -/
def system (packet : Nat) : EventSystem (ByteSource Byte) StreamCall (List Byte) where
  step source
    | .open => ({ source with isOpen := true }, [])
    | .close => ({ source with isOpen := false }, [])
    | .read size =>
      if source.isOpen then
        ({ source with remaining := source.remaining.drop (min size packet) },
          [source.remaining.take (min size packet)])
      else (source, [[]])

theorem step_read_of_open (packet size : Nat) {source : ByteSource Byte}
    (isOpen : source.isOpen = true) :
    (system packet).step source (.read size) =
      ({ source with remaining := source.remaining.drop (min size packet) },
        [source.remaining.take (min size packet)]) :=
  if_pos isOpen

theorem step_read_of_not_open (packet size : Nat) {source : ByteSource Byte}
    (notOpen : source.isOpen = false) :
    (system packet).step source (.read size) = (source, [[]]) :=
  if_neg (by rw [notOpen]; exact Bool.false_ne_true)

theorem flatten_emits_append_next (packet : Nat) (source : ByteSource Byte) (call : StreamCall) :
    ((system packet).emits source call).flatten ++ ((system packet).next source call).remaining =
      source.remaining := by
  unfold EventSystem.emits EventSystem.next
  cases call with
  | «open» => rfl
  | close => rfl
  | read size =>
      cases isOpen : source.isOpen with
      | false =>
          rw [step_read_of_not_open packet size isOpen]
          rfl
      | true =>
          rw [step_read_of_open packet size isOpen, List.flatten_singleton]
          exact List.take_append_drop _ _

/-- The pieces of a run and what is left are the whole sequence. -/
theorem flatten_trace_append_run (packet : Nat) (source : ByteSource Byte)
    (calls : List StreamCall) :
    ((system packet).trace source calls).flatten ++ ((system packet).run source calls).remaining =
      source.remaining := by
  induction calls generalizing source with
  | nil => rfl
  | cons call rest inductionHypothesis =>
      rw [EventSystem.trace_cons, List.flatten_append, EventSystem.run_cons, List.append_assoc,
        inductionHypothesis, flatten_emits_append_next]

/-- How much the reads ask for, each at most a packet. -/
def demand (packet : Nat) (sizes : List Nat) : Nat :=
  (sizes.map fun size => min size packet).sum

/-- Reads of an open source take as much as they ask for, while it lasts. -/
theorem run_reads (packet : Nat) {source : ByteSource Byte} (isOpen : source.isOpen = true)
    (sizes : List Nat) :
    (system packet).run source (sizes.map StreamCall.read) =
      { source with remaining := source.remaining.drop (demand packet sizes) } := by
  induction sizes generalizing source with
  | nil => rfl
  | cons size rest inductionHypothesis =>
      have next : (system packet).next source (.read size) =
          ⟨source.remaining.drop (min size packet), source.isOpen⟩ :=
        congrArg Prod.fst (step_read_of_open packet size isOpen)
      have later := @inductionHypothesis ⟨source.remaining.drop (min size packet), source.isOpen⟩ isOpen
      rw [List.map_cons, EventSystem.run_cons, next, later, List.drop_drop]
      rfl

/-- Reads that together ask for enough deliver the whole sequence. -/
theorem flatten_trace_reads (packet : Nat) {source : ByteSource Byte}
    (isOpen : source.isOpen = true) {sizes : List Nat}
    (enough : source.remaining.length ≤ demand packet sizes) :
    ((system packet).trace source (sizes.map StreamCall.read)).flatten = source.remaining := by
  have whole := flatten_trace_append_run packet source (sizes.map StreamCall.read)
  rw [run_reads packet isOpen sizes] at whole
  change _ ++ source.remaining.drop (demand packet sizes) = _ at whole
  rwa [List.drop_eq_nil_of_le enough, List.append_nil] at whole

end ByteSource
end Library
