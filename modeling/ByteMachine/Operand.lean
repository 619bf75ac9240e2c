import ByteMachine.Opcode

namespace ByteMachine

/-! Operands of instructions: a literal byte, a register, or a memory cell named by a
further operand. -/

inductive Operand where
  | literal (byte : Byte)
  | top
  | insPtr
  /-- The cell that the inner operand points to; without a width it is one byte. -/
  | ref (width : Option Width) (inner : Operand)
  /-- The cell of the given width at the inner operand's address. -/
  | sized (width : Width) (inner : Operand)
  deriving DecidableEq, Repr

namespace Operand

/-- How many operands may nest, the innermost one counted. -/
def depthLimit : Nat := 16

def marker? : Operand → Option Opcode
  | literal _ => none
  | top => some .top
  | insPtr => some .insPtr
  | ref _ _ => some .ref
  | sized width _ => some (.size width)

def encode : Operand → List Byte
  | literal byte => [byte]
  | top => [Opcode.top.code]
  | insPtr => [Opcode.insPtr.code]
  | ref none inner => Opcode.ref.code :: inner.encode
  | ref (some width) inner => Opcode.ref.code :: (Opcode.size width).code :: inner.encode
  | sized width inner => (Opcode.size width).code :: inner.encode

def words : Operand → List String
  | literal byte => [byte.text]
  | top => [Opcode.top.mnemonic]
  | insPtr => [Opcode.insPtr.mnemonic]
  | ref none inner => Opcode.ref.mnemonic :: inner.words
  | ref (some width) inner => Opcode.ref.mnemonic :: (Opcode.size width).mnemonic :: inner.words
  | sized width inner => (Opcode.size width).mnemonic :: inner.words

def text (operand : Operand) : String :=
  String.intercalate " " operand.words

theorem encode_ne_nil (operand : Operand) : operand.encode ≠ [] := by
  fun_cases encode operand <;> simp

end Operand

end ByteMachine
