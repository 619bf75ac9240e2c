import ByteMachine.Assembly.Error
import ByteMachine.Text.Numeral
import ByteMachine.Text.Split
import ByteMachine.Text.Uppercase
import ByteMachine.Text.Whitespace

namespace ByteMachine.Assembly

/-! The tokens of a line: names in upper case, and numbers. -/

inductive Token where
  | name (text : String)
  | number (value : Nat)
  deriving DecidableEq, Repr

namespace Token

/-- A token as messages show it; numbers are shown in decimal. -/
def text : Token → String
  | name text => text
  | number value => toString value

/-- The numeral in `digits`, which is all or the rest of `word`. -/
def ofNumeral (word : List Char) (base : Nat) (digits : List Char) : Except Cause Token :=
  match Text.numeral? base digits with
  | some value => .ok (number value)
  | none => .error (.invalidNumber (String.ofList word))

/-- A word is hexadecimal after `0x`, decimal if it starts with a digit, and a name
otherwise. -/
def ofWord (word : List Char) : Except Cause Token :=
  match word with
  | '0' :: 'x' :: digits => ofNumeral word 16 digits
  | '0' :: 'X' :: digits => ofNumeral word 16 digits
  | first :: _ =>
      if first.isDigit then ofNumeral word 10 word
      else .ok (name (String.ofList (Text.upper word)))
  | [] => .ok (name "")

end Token

def isSeparator (char : Char) : Bool :=
  Text.isWhitespace char || char == ','

def code (line : List Char) : List Char :=
  line.takeWhile (· != ';')

def words (line : List Char) : List (List Char) :=
  Text.fields isSeparator (code line)

def tokens (line : List Char) : Except Cause (List Token) :=
  (words line).mapM Token.ofWord

end ByteMachine.Assembly
