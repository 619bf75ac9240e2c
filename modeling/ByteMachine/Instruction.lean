import ByteMachine.Operand
import ByteMachine.Value

namespace ByteMachine

/-! Instructions, their encoding as bytes and their assembly text. -/

inductive Instruction where
  | move (destination source : Operand)
  | load (destination : Operand) (value : Value)
  | jump (target : Operand)
  | push (source : Operand)
  | pop
  | arithmetic (op : Arithmetic) (left right : Operand)
  | compare (condition : Condition) (left right : Operand)
  | branch (condition : Condition) (left right target : Operand)
  | bitwise (op : Bitwise) (destination source : Operand)
  | invert (destination : Operand)
  deriving DecidableEq, Repr

namespace Instruction

def opcode : Instruction → Opcode
  | move _ _ => .move
  | load _ value => .load value.width
  | jump _ => .jump
  | push _ => .push
  | pop => .pop
  | arithmetic op _ _ => .arithmetic op
  | compare condition _ _ => .compare condition
  | branch condition _ _ _ => .branch condition
  | bitwise op _ _ => .bitwise op
  | invert _ => .invert

def operands : Instruction → List Operand
  | move destination source => [destination, source]
  | load destination _ => [destination]
  | jump target => [target]
  | push source => [source]
  | pop => []
  | arithmetic _ left right => [left, right]
  | compare _ left right => [left, right]
  | branch _ left right target => [left, right, target]
  | bitwise _ destination source => [destination, source]
  | invert destination => [destination]

def immediate? : Instruction → Option Value
  | load _ value => some value
  | _ => none

def encode (instruction : Instruction) : List Byte :=
  instruction.opcode.code ::
    (instruction.operands.flatMap Operand.encode ++
      (instruction.immediate?.map (·.bytes)).getD [])

def words (instruction : Instruction) : List String :=
  instruction.opcode.mnemonic ::
    (instruction.operands.flatMap Operand.words ++
      (instruction.immediate?.map (·.text)).toList)

def text (instruction : Instruction) : String :=
  String.intercalate " " instruction.words

theorem encode_ne_nil (instruction : Instruction) : instruction.encode ≠ [] := by
  simp [encode]

end Instruction

end ByteMachine
