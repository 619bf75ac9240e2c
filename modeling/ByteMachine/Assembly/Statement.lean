import ByteMachine.Assembly.Parse

namespace ByteMachine.Assembly

/-! Statements: what a line of assembly text says. -/

inductive Statement where
  | instruction (written : Instruction)
  | data (bytes : List Byte)
  deriving DecidableEq, Repr

namespace Statement

def dataMnemonic : String := "DB"

def encode : Statement → List Byte
  | instruction written => written.encode
  | data bytes => bytes

def text : Statement → String
  | instruction written => written.text
  | data bytes => String.intercalate " " (dataMnemonic :: bytes.map Byte.text)

def datum : Token → Except Cause Byte
  | .number number => Parse.byte number
  | .name name => .error (.unexpectedToken name)

def dataOfTokens : List Token → Except Cause Statement
  | [] => .error (.missingOperand dataMnemonic 1)
  | tokens => do
      let bytes ← tokens.mapM datum
      return data bytes

def instructionOfTokens (opcode : Opcode) (tokens : List Token) : Except Cause Statement := do
  let (parsed, rest) ← Parse.body opcode tokens
  match rest with
  | [] => return instruction parsed
  | token :: _ => throw (.unexpectedToken token.text)

def ofTokens : List Token → Except Cause (Option Statement)
  | [] => .ok none
  | .number number :: _ => .error (.unexpectedToken (toString number))
  | .name name :: rest =>
      if name = dataMnemonic then (dataOfTokens rest).map some
      else
        match Opcode.ofMnemonic? name with
        | some opcode => (instructionOfTokens opcode rest).map some
        | none => .error (.unknownMnemonic name)

def ofLine (line : List Char) : Except Cause (Option Statement) := do
  let tokens ← tokens line
  ofTokens tokens

end Statement

end ByteMachine.Assembly
