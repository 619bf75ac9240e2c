import ByteMachine.AccessError
import ByteMachine.Cells
import ByteMachine.Value

namespace ByteMachine

/-! Memory: one cell for each byte address. -/

abbrev Memory.size : Nat := 256

structure Memory where
  cells : Cells Memory.size
  deriving DecidableEq

namespace Memory

def zero : Memory :=
  ⟨Cells.zero size⟩

def toList (memory : Memory) : List Byte :=
  memory.cells.toList

def byteAt (memory : Memory) (address : Byte) : Byte :=
  memory.cells.byteAt address.toNat

def setByte (memory : Memory) (address byte : Byte) : Memory :=
  ⟨memory.cells.overwrite address.toNat [byte]⟩

def read (memory : Memory) (address : Byte) (width : Width) : Except AccessError Value :=
  if address.toNat + width.size ≤ size then
    match Value.ofBytes? (memory.cells.slice address.toNat width.size) with
    | some value => .ok value
    | none => .error (.outOfRange address width)
  else
    .error (.outOfRange address width)

/-- What a call does with memory. A call that fails leaves a memory too, with all that it has
changed by then. -/
abbrev Action := EStateM AccessError Memory

/-- Writes a value into the cells from an address on, or nothing if it does not fit. -/
def Action.write (address : Byte) (value : Value) : Action Unit := do
  if size < address.toNat + value.width.size then
    throw (.outOfRange address value.width)
  modify fun memory => ⟨memory.cells.overwrite address.toNat value.bytes⟩

/-- The memory that a write leaves if it succeeds. -/
def write (memory : Memory) (address : Byte) (value : Value) : Except AccessError Memory :=
  match Action.write address value memory with
  | .ok _ left => .ok left
  | .error error _ => .error error

@[simp] theorem length_toList (memory : Memory) : memory.toList.length = size := by
  simp [toList, size]

/-- Every address has a cell. -/
theorem getElem?_toList (memory : Memory) (address : Byte) :
    memory.toList[address.toNat]? = some (memory.byteAt address) := by
  have inside : address.toNat < memory.cells.toList.length := by
    rw [Vector.length_toList]
    exact address.toNat_lt
  rw [toList, List.getElem?_eq_getElem inside, Cells.getElem_toList]
  rfl

@[simp] theorem byteAt_zero (address : Byte) : zero.byteAt address = 0 := by
  simp [zero, byteAt]

end Memory

end ByteMachine
