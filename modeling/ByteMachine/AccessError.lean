import ByteMachine.Byte
import ByteMachine.Width

namespace ByteMachine

/-! Why memory or the stack cannot be accessed. -/

inductive AccessError where
  | outOfRange (address : Byte) (width : Width)
  | stackOverflow
  | stackUnderflow
  deriving DecidableEq, Repr

def AccessError.message : AccessError → String
  | outOfRange address width =>
      width.text ++ " access at " ++ address.text ++ " runs past the end of memory"
  | stackOverflow => "stack overflow"
  | stackUnderflow => "stack underflow"

end ByteMachine
