import ByteMachine.Fault
import ByteMachine.Memory
import ByteMachine.Stack
import ByteMachine.Tape

namespace ByteMachine

/-! The state of a machine. -/

inductive Status where
  | running
  | finished
  | faulted (fault : Fault)
  deriving DecidableEq, Repr

def Status.isHalted : Status → Bool
  | running => false
  | _ => true

structure Machine where
  tape : Tape
  memory : Memory := .zero
  stack : Stack := .empty
  status : Status := .running
  /-- The offset of the instruction fetched last. -/
  offset : Nat := 0
  /-- The number of completed instructions. It has no bound here; a counter of 64 bits is the
  same below `2 ^ 64` instructions. -/
  steps : Nat := 0
  deriving DecidableEq

namespace Machine

def start (tape : Tape) : Machine :=
  { tape := tape.rewind }

@[simp] theorem tape_start (tape : Tape) : (start tape).tape = tape.rewind := rfl

@[simp] theorem memory_start (tape : Tape) : (start tape).memory = .zero := rfl

@[simp] theorem stack_start (tape : Tape) : (start tape).stack = .empty := rfl

@[simp] theorem status_start (tape : Tape) : (start tape).status = .running := rfl

@[simp] theorem steps_start (tape : Tape) : (start tape).steps = 0 := rfl

end Machine

end ByteMachine
