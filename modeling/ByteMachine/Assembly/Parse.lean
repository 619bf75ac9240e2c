import ByteMachine.Assembly.Token
import ByteMachine.Instruction

namespace ByteMachine.Assembly

/-! Readers of token lists. They accept the operands that can be decoded again from their
bytes, and no others. -/

abbrev Parse := StateT (List Token) (Except Cause)

def operandCount : Opcode → Nat
  | .pop => 0
  | .jump | .push | .invert => 1
  | .branch _ => 3
  | _ => 2

namespace Parse

/-- The next token; `opcode` tells whose operand is missing if there is none. -/
def next (opcode : Opcode) : Parse Token
  | [] => .error (.missingOperand opcode.mnemonic (operandCount opcode))
  | token :: rest => .ok (token, rest)

def size? : Parse (Option Width)
  | .name name :: rest =>
      match (Opcode.ofMnemonic? name).bind Opcode.width? with
      | some width => .ok (some width, rest)
      | none => .ok (none, .name name :: rest)
  | tokens => .ok (none, tokens)

def byte (number : Nat) : Except Cause Byte :=
  if number < 256 then .ok (UInt8.ofNat number)
  else .error (.invalidNumber (toString number))

/-- A number as an operand, which a byte with a meaning of its own cannot be. -/
def literal (symbol : Byte → Symbol) (number : Nat) : Except Cause Operand := do
  let byte ← byte number
  match symbol byte with
  | .literal byte => return .literal byte
  | .marker opcode => throw (.ambiguousLiteral byte opcode)

/-- An operand of at most `levels` nested operands. The limit is tested before a token is
read. -/
def operand (opcode : Opcode) : (levels : Nat) → Parse Operand
  | 0 => throw .operandTooDeep
  | levels + 1 => do
      match ← next opcode with
      | .number number => literal Symbol.ofByte number
      | .name name =>
          match Opcode.ofMnemonic? name with
          | some .top => return .top
          | some .insPtr => return .insPtr
          | some .ref =>
              let width ← size?
              let inner ← operand opcode levels
              return .ref width inner
          | some (.size width) =>
              let inner ← operand opcode levels
              return .sized width inner
          | _ => throw (.unexpectedToken name)

def address (opcode : Opcode) : Parse Operand :=
  operand opcode Operand.depthLimit

/-- An operand that names a byte. It has no size name in front. -/
def byteOperand (opcode : Opcode) : Parse Operand
  | .number number :: rest => do
      let operand ← literal Symbol.ofValueByte number
      return (operand, rest)
  | .name name :: rest =>
      match (Opcode.ofMnemonic? name).bind Opcode.width? with
      | some _ => .error (.unexpectedToken name)
      | none => address opcode (.name name :: rest)
  | [] => address opcode []

def pushed (opcode : Opcode) : Parse Operand := do
  match ← next opcode with
  | .number number =>
      let byte ← byte number
      if byte = Opcode.insPtr.code then throw (.ambiguousLiteral byte .insPtr)
      else return .literal byte
  | .name name =>
      match Opcode.ofMnemonic? name with
      | some .insPtr => return .insPtr
      | _ => throw (.unexpectedToken name)

/-- An immediate value, which has to fit its width. -/
def immediate (opcode : Opcode) (width : Width) : Parse Value := do
  match ← next opcode with
  | .number number =>
      if number ≤ width.mask.toNat then return .ofNat width number
      else throw (.invalidNumber (toString number))
  | .name name => throw (.unexpectedToken name)

def body (opcode : Opcode) : Parse Instruction :=
  match opcode with
  | .move => do
      let destination ← address opcode
      let source ← address opcode
      return .move destination source
  | .load width => do
      let destination ← address opcode
      let value ← immediate opcode width
      return .load destination value
  | .jump => do
      let target ← address opcode
      return .jump target
  | .push => do
      let source ← pushed opcode
      return .push source
  | .pop => return .pop
  | .arithmetic op => do
      let left ← byteOperand opcode
      let right ← byteOperand opcode
      return .arithmetic op left right
  | .compare condition => do
      let left ← byteOperand opcode
      let right ← byteOperand opcode
      return .compare condition left right
  | .branch condition => do
      let left ← byteOperand opcode
      let right ← byteOperand opcode
      let target ← address opcode
      return .branch condition left right target
  | .bitwise op => do
      let destination ← address opcode
      let source ← byteOperand opcode
      return .bitwise op destination source
  | .invert => do
      let destination ← address opcode
      return .invert destination
  | .top | .ref | .insPtr | .size _ => throw (.unexpectedToken opcode.mnemonic)

end Parse

end ByteMachine.Assembly
