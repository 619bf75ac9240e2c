import ByteMachine.Text.Numeral

namespace ByteMachine.CommandLine

/-! The options of the run command. -/

structure RunOptions where
  maxSteps : Option Nat := none
  dump : Bool := false
  deriving DecidableEq, Repr

inductive OptionError where
  | missingCount
  | invalidCount (text : String)
  | unknownOption (text : String)
  deriving DecidableEq, Repr

namespace RunOptions

def usage : String :=
  "Usage: lux run <input.luxb> [--max-steps N] [--dump]\n"

/-- Reads options from left to right; a later step count replaces an earlier one. -/
def read (options : RunOptions) : List String → Except OptionError RunOptions
  | [] => .ok options
  | "--dump" :: rest => read { options with dump := true } rest
  | ["--max-steps"] => .error .missingCount
  | "--max-steps" :: count :: rest =>
      match Text.numeral? 10 count.toList with
      | some steps => read { options with maxSteps := some steps } rest
      | none => .error (.invalidCount count)
  | other :: _ => .error (.unknownOption other)

def ofArguments (arguments : List String) : Except OptionError RunOptions :=
  read {} arguments

end RunOptions

def OptionError.message : OptionError → String
  | missingCount => "error: --max-steps requires a value\n"
  | invalidCount text => "error: invalid step count '" ++ text ++ "'\n"
  | unknownOption text => "error: unknown option '" ++ text ++ "'\n" ++ RunOptions.usage

end ByteMachine.CommandLine
