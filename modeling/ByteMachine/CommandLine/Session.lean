import ByteMachine.CommandLine.Directory
import ByteMachine.Machine.Step

namespace ByteMachine.CommandLine

/-! Sessions: what a command asks of its surroundings until it exits. -/

/-- The number that a command exits with. -/
abbrev ExitCode := UInt8

namespace ExitCode

def success : ExitCode := 0

def failure : ExitCode := 1

def fault : ExitCode := 3

def exhausted : ExitCode := 4

end ExitCode

/-- What a command has told when it exits. The two texts are those that it writes itself. The
log has its warnings, which are logged by default: they go to the second stream as well, ahead
of the text there, each on a line of the logger's own form with the time in it. What would be
logged below the level of a warning is not part of a report. -/
structure Report where
  code : ExitCode
  stdout : String := ""
  stderr : String := ""
  log : List Event := []
  deriving DecidableEq, Repr

inductive Session where
  | exit (report : Report)
  | readFile (path : String) (next : Except FileError (List Byte) → Session)
  | writeFile (path : String) (content : List Byte) (next : Except FileError Unit → Session)
  /-- Runs a machine until it halts, which may take forever. -/
  | settle (machine : Machine) (next : Machine → Session)

namespace Session

/-- The end of a session in a directory, and the directory then; there is none if a machine
does not halt within `limit` steps. A failed write changes nothing. -/
def runIn (limit : Nat) (directory : Directory) : Session → Option (Report × Directory)
  | exit report => some (report, directory)
  | readFile path next => (next (directory.read path)).runIn limit directory
  | writeFile path content next =>
      match directory.write path content with
      | .ok written => (next (.ok ())).runIn limit written
      | .error error => (next (.error error)).runIn limit directory
  | settle machine next =>
      let halted := machine.run limit
      if halted.status.isHalted then (next halted).runIn limit directory else none

end Session

end ByteMachine.CommandLine
