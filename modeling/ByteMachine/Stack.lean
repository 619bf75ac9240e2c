import ByteMachine.AccessError
import ByteMachine.Cells
import ByteMachine.Value

namespace ByteMachine

/-! The stack: a row of cells and the pointer to the first free one. -/

abbrev Stack.capacity : Nat := 1024

structure Stack where
  cells : Cells Stack.capacity
  pointer : Nat
  deriving DecidableEq

namespace Stack

def empty : Stack :=
  ⟨Cells.zero capacity, 0⟩

def isEmpty (stack : Stack) : Bool :=
  stack.pointer == 0

/-- The live bytes, bottom first. -/
def contents (stack : Stack) : List Byte :=
  stack.cells.toList.take stack.pointer

def free (stack : Stack) : List Byte :=
  stack.cells.toList.drop stack.pointer

/-- The last byte pushed, or zero on an empty stack. -/
def top (stack : Stack) : Byte :=
  match stack.pointer with
  | 0 => 0
  | last + 1 => stack.cells.byteAt last

/-- What a call does with a stack. A call that fails leaves a stack too, with all that it has
changed by then. -/
abbrev Action := EStateM AccessError Stack

namespace Action

/-- Pushes the bytes of a value, the most significant one first, or nothing if they do not
fit. -/
def push (value : Value) : Action Unit := do
  let start := (← get).pointer
  if capacity < start + value.width.size then
    throw .stackOverflow
  modify fun stack => { stack with cells := stack.cells.overwrite start value.bytes }
  modify fun stack => { stack with pointer := start + value.width.size }

def pushByte (byte : Byte) : Action Unit :=
  push (.ofByte byte)

/-- Takes the last byte off and clears its cell. -/
def pop : Action Byte := do
  match (← get).pointer with
  | 0 => throw .stackUnderflow
  | last + 1 =>
      modify fun stack => { stack with pointer := last }
      let byte := (← get).cells.byteAt last
      modify fun stack => { stack with cells := stack.cells.overwrite last [0] }
      return byte

end Action

/-- The stack that a push leaves if it succeeds. -/
def push (stack : Stack) (value : Value) : Except AccessError Stack :=
  match Action.push value stack with
  | .ok _ left => .ok left
  | .error error _ => .error error

def pushByte (stack : Stack) (byte : Byte) : Except AccessError Stack :=
  stack.push (.ofByte byte)

/-- The byte that a pop takes off and the stack that it leaves, if it succeeds. -/
def pop (stack : Stack) : Except AccessError (Byte × Stack) :=
  match Action.pop stack with
  | .ok byte left => .ok (byte, left)
  | .error error _ => .error error

@[simp] theorem pointer_empty : empty.pointer = 0 := rfl

@[simp] theorem contents_empty : empty.contents = [] := rfl

@[simp] theorem top_empty : empty.top = 0 := rfl

end Stack

end ByteMachine
