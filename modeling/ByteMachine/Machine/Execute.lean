import ByteMachine.Machine.Resolve

namespace ByteMachine.Machine

/-! The effect of one decoded instruction. An action changes the machine as it goes, and what
it has changed by the time it fails stays changed. Operands are resolved in a fixed order. -/

abbrev Action := EStateM Fault.Cause Machine

/-- Asks for what the machine tells without being changed. -/
def ask {α : Type} (question : Machine → Except Fault.Cause α) : Action α := fun machine =>
  match question machine with
  | .ok answer => .ok answer machine
  | .error cause => .error cause machine

/-- Makes a call on a part of the machine. What the call leaves of the part is put back, also
if it fails. -/
def onPart {σ α : Type} (part : Machine → σ) (replace : Machine → σ → Machine)
    (call : EStateM AccessError σ α) : Action α := fun machine =>
  match call (part machine) with
  | .ok result left => .ok result (replace machine left)
  | .error error left => .error (.ofAccessError error) (replace machine left)

def onMemory {α : Type} : Memory.Action α → Action α :=
  onPart memory fun machine memory => { machine with memory := memory }

def onStack {α : Type} : Stack.Action α → Action α :=
  onPart stack fun machine stack => { machine with stack := stack }

def store (address : Byte) (value : Value) : Action Unit :=
  onMemory (.write address value)

def push (byte : Byte) : Action Unit :=
  onStack (.pushByte byte)

def pop : Action Byte :=
  onStack .pop

def jump (target : Nat) : Action Unit := fun machine =>
  match machine.tape.seek target with
  | (.ok _, tape) => .ok () { machine with tape := tape }
  | (.error _, tape) => .error (.jumpOutOfRange target) { machine with tape := tape }

/-- The width at which a move writes. A sized destination decides; otherwise a sized source
is narrowed to a byte, and any other source keeps its own width. -/
def moveWidth (destination : Destination) (source : Operand) (value : Value) : Width :=
  match destination.width?, source with
  | some width, _ => width
  | none, .sized _ _ => .byte
  | none, _ => value.width

def execute : Instruction → Action Unit
  | .move destination source => do
      let cell ← ask (·.destination destination)
      let value ← ask (·.moveSource source)
      store cell.address (value.resize (moveWidth cell source value))
  | .load destination value => do
      let cell ← ask (·.destination destination)
      match cell.width? with
      | none => store cell.address value
      | some width =>
          if width = value.width then store cell.address value
          else throw (.unknownMarker (.size width))
  | .jump target => do
      let offset ← ask (·.jumpTarget target)
      jump offset
  | .push source => do
      let byte ← ask (·.byte source)
      push byte
  | .pop => discard pop
  | .arithmetic op left right => do
      let left ← ask (·.byte left)
      let right ← ask (·.byte right)
      match op.result? left right with
      | some result => push result
      | none => throw .divisionByZero
  | .compare condition left right => do
      let left ← ask (·.byte left)
      let right ← ask (·.byte right)
      push (if condition.holds left right then 1 else 0)
  | .branch condition left right target => do
      let left ← ask (·.byte left)
      let right ← ask (·.byte right)
      let offset ← ask (·.jumpTarget target)
      if condition.holds left right then jump offset
  | .bitwise op destination source => do
      let cell ← ask (·.destination destination)
      let source ← ask (·.byte source)
      let value ← ask (·.load cell.address cell.width)
      store cell.address (.ofUInt64 cell.width (op.result cell.width value.toUInt64 source))
  | .invert destination => do
      let cell ← ask (·.destination destination)
      let value ← ask (·.load cell.address cell.width)
      store cell.address (.ofUInt64 cell.width (~~~value.toUInt64))

end ByteMachine.Machine
