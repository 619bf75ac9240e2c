import ByteMachine.Assembly.Statement

namespace ByteMachine.Assembly

/-! From assembly text to program bytes. -/

/-- The bytes of a line. A blank line has none. -/
def assembleLine (line : List Char) : Except Cause (List Byte) := do
  let statement? ← Statement.ofLine line
  return (statement?.map Statement.encode).getD []

/-- The bytes of consecutive lines, of which the first has the given number. The first line
in error decides. -/
def assembleLines : (number : Nat) → List (List Char) → Except Error (List Byte)
  | _, [] => .ok []
  | number, line :: lines => do
      let first ← (assembleLine line).mapError (Error.mk number)
      let rest ← assembleLines (number + 1) lines
      return first ++ rest

/-- A line without the carriage return that may be its last character. -/
def dropReturn (line : List Char) : List Char :=
  if line.getLast? = some '\r' then line.dropLast else line

/-- The lines of the pieces between newlines. A carriage return in front of a newline is part of
the end of line. The last line need not be ended: what is behind the last newline is a line if
it is not empty. -/
def linesOfPieces : List (List Char) → List (List Char)
  | [] => []
  | [last] => if last.isEmpty then [] else [last]
  | piece :: next :: pieces => dropReturn piece :: linesOfPieces (next :: pieces)

def pieces (text : String) : List (List Char) :=
  Text.split (· == '\n') text.toList

def lines (text : String) : List (List Char) :=
  linesOfPieces (pieces text)

def assemble (text : String) : Except Error (List Byte) :=
  assembleLines 1 (lines text)

end ByteMachine.Assembly
