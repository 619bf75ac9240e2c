import ByteMachine.Operand

namespace ByteMachine.Assembly

/-! Why a text cannot be assembled, and at which line. -/

inductive Cause where
  | unknownMnemonic (name : String)
  | missingOperand (mnemonic : String) (expected : Nat)
  | invalidNumber (text : String)
  | unexpectedToken (text : String)
  /-- A literal that would be read back as a marker. -/
  | ambiguousLiteral (byte : Byte) (opcode : Opcode)
  | operandTooDeep
  deriving DecidableEq, Repr

structure Error where
  /-- The number of the line, counted from one. -/
  line : Nat
  cause : Cause
  deriving DecidableEq, Repr

def Cause.message : Cause → String
  | unknownMnemonic name => "unknown mnemonic '" ++ name ++ "'"
  | missingOperand mnemonic expected =>
      mnemonic ++ " expects " ++ toString expected ++ " operand(s)"
  | invalidNumber text => "invalid number '" ++ text ++ "'"
  | unexpectedToken text => "unexpected token '" ++ text ++ "'"
  | ambiguousLiteral byte opcode =>
      "literal " ++ byte.text ++ " is the " ++ opcode.mnemonic ++ " opcode byte"
  | operandTooDeep => "operand nesting exceeds " ++ toString Operand.depthLimit ++ " levels"

def Error.message (error : Error) : String :=
  "line " ++ toString error.line ++ ": " ++ error.cause.message

end ByteMachine.Assembly
