import ByteMachine.AccessError
import ByteMachine.DecodeError

namespace ByteMachine

/-! Faults, which halt a machine: what went wrong, and at which instruction. -/

inductive Fault.Cause where
  | invalidOpcode (byte : Byte)
  | misplacedMarker (opcode : Opcode)
  | unknownMarker (opcode : Opcode)
  | operandTooDeep
  | streamUnderrun
  | memoryOutOfRange (address : Byte) (width : Width)
  | stackOverflow
  | stackUnderflow
  | divisionByZero
  | jumpOutOfRange (target : Nat)
  /-- The instruction pointer does not fit in a byte. -/
  | insPtrOverflow (cursor : Nat)
  deriving DecidableEq, Repr

structure Fault where
  offset : Nat
  cause : Fault.Cause
  deriving DecidableEq, Repr

namespace Fault

def Cause.ofDecodeError : DecodeError → Cause
  | .unexpectedEnd => streamUnderrun
  | .invalidOpcode byte => invalidOpcode byte
  | .misplacedMarker opcode => misplacedMarker opcode
  | .unknownMarker opcode => unknownMarker opcode
  | .operandTooDeep => operandTooDeep
  | .invalidLength _ => streamUnderrun

def Cause.ofAccessError : AccessError → Cause
  | .outOfRange address width => memoryOutOfRange address width
  | .stackOverflow => stackOverflow
  | .stackUnderflow => stackUnderflow

def Cause.message : Cause → String
  | invalidOpcode byte => "invalid opcode " ++ byte.text
  | misplacedMarker opcode =>
      "marker " ++ opcode.mnemonic ++ " fetched as an instruction"
  | unknownMarker opcode => "unknown addressing marker " ++ opcode.mnemonic
  | operandTooDeep =>
      "operand nesting exceeds " ++ toString Operand.depthLimit ++ " levels"
  | streamUnderrun => "instruction stream ended inside the instruction"
  | memoryOutOfRange address width =>
      width.text ++ " access at address " ++ address.text ++ " out of range"
  | stackOverflow => "stack overflow"
  | stackUnderflow => "stack underflow"
  | divisionByZero => "division by zero"
  | jumpOutOfRange target => "jump target " ++ toString target ++ " out of range"
  | insPtrOverflow cursor =>
      "instruction pointer " ++ toString cursor ++ " does not fit in a byte"

def message (fault : Fault) : String :=
  fault.cause.message ++ " at offset " ++ toString fault.offset

end Fault

end ByteMachine
