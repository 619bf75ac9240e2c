import ByteMachine.Operand

namespace ByteMachine

/-! Why bytes cannot be read as a value or an instruction. -/

inductive DecodeError where
  | unexpectedEnd
  | invalidOpcode (byte : Byte)
  | misplacedMarker (opcode : Opcode)
  | unknownMarker (opcode : Opcode)
  | operandTooDeep
  | invalidLength (length : Nat)
  deriving DecidableEq, Repr

def DecodeError.message : DecodeError → String
  | unexpectedEnd => "unexpected end of instruction stream"
  | invalidOpcode byte => "invalid opcode: " ++ byte.text
  | misplacedMarker opcode => "marker " ++ opcode.mnemonic ++ " is not an instruction"
  | unknownMarker opcode => "unknown addressing marker " ++ opcode.mnemonic
  | operandTooDeep => "operand nesting exceeds " ++ toString Operand.depthLimit ++ " levels"
  | invalidLength length =>
      "invalid value length: " ++ toString length ++ " (must be 1, 2, 4 or 8)"

end ByteMachine
