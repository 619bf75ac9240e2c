import ByteMachine.Machine.Basic

namespace ByteMachine.Machine

/-! What an operand stands for in a machine whose cursor is behind the instruction. An
operand is resolved to an address, a value, a byte, a destination, the source of a move or
the target of a jump, as its instruction asks. -/

def insPtr (machine : Machine) : Except Fault.Cause Byte :=
  if machine.tape.cursor < 256 then .ok (UInt8.ofNat machine.tape.cursor)
  else .error (.insPtrOverflow machine.tape.cursor)

/-- The memory address that an operand names. References of one byte are followed; a wider
cell is no address. -/
def address (machine : Machine) : Operand → Except Fault.Cause Byte
  | .literal byte => .ok byte
  | .top => .ok machine.stack.top
  | .insPtr => machine.insPtr
  | .ref none inner => (machine.address inner).map machine.memory.byteAt
  | .ref (some .byte) inner => (machine.address inner).map machine.memory.byteAt
  | .ref (some width) _ => .error (.unknownMarker (.size width))
  | .sized width _ => .error (.unknownMarker (.size width))

def load (machine : Machine) (address : Byte) (width : Width) : Except Fault.Cause Value :=
  (machine.memory.read address width).mapError .ofAccessError

/-- The value that an operand names. A literal is its own value. -/
def value (machine : Machine) : Operand → Except Fault.Cause Value
  | .literal byte => .ok (.ofByte byte)
  | .top => .ok (.ofByte machine.stack.top)
  | .insPtr => machine.insPtr.map .ofByte
  | .ref width inner => do
      let address ← machine.address inner
      machine.load address (width.getD .byte)
  | .sized width inner => do
      let address ← machine.address inner
      machine.load address width

/-- The byte that an operand names: the low byte of its value. -/
def byte (machine : Machine) (operand : Operand) : Except Fault.Cause Byte :=
  (machine.value operand).map (·.lowByte)

structure Destination where
  address : Byte
  width? : Option Width
  deriving DecidableEq, Repr

def Destination.width (destination : Destination) : Width :=
  destination.width?.getD .byte

/-- The cell that an operand names as a destination. A reference is followed once more than
in a value: it writes to the cell that its own cell points to. -/
def destination (machine : Machine) : Operand → Except Fault.Cause Destination
  | .literal byte => .ok ⟨byte, none⟩
  | .top => .ok ⟨machine.stack.top, none⟩
  | .insPtr => .error (.unknownMarker .insPtr)
  | .ref width inner =>
      (machine.address inner).map fun pointer => ⟨machine.memory.byteAt pointer, width⟩
  | .sized width inner =>
      (machine.address inner).map fun address => ⟨address, some width⟩

/-- The value that a move copies. A literal names the memory cell at its address. -/
def moveSource (machine : Machine) : Operand → Except Fault.Cause Value
  | .literal byte => .ok (.ofByte (machine.memory.byteAt byte))
  | operand => machine.value operand

def jumpTarget (machine : Machine) : Operand → Except Fault.Cause Nat
  | .literal byte => .ok byte.toNat
  | .top => .ok machine.stack.top.toNat
  | .insPtr => .error (.unknownMarker .insPtr)
  | .ref _ _ => .error (.unknownMarker .ref)
  | .sized width _ => .error (.unknownMarker (.size width))

end ByteMachine.Machine
