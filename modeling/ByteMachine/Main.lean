import ByteMachine.CommandLine.Command

namespace ByteMachine.CommandLine

/-! The command line on real files. -/

/-- The number of a system error, which may come negated. -/
def errorNumber (code : UInt32) : Nat :=
  if code.toNat < 0x80000000 then code.toNat else 0x100000000 - code.toNat

def fileError (error : IO.Error) : FileError :=
  match error with
  | .noFileOrDirectory .. => .notFound
  | .inappropriateType _ code _ =>
      if errorNumber code = 20 then .notDirectory else .isDirectory
  | .invalidArgument _ code _ =>
      if errorNumber code = 36 then .nameTooLong else .other (toString error)
  | .permissionDenied _ code _ =>
      .other ("Permission denied (os error " ++ toString (errorNumber code) ++ ")")
  | _ => .other (toString error)

def readBytes (path : String) : IO (Except FileError (List Byte)) := do
  try
    let content ← IO.FS.readBinFile path
    return .ok content.toList
  catch error => return .error (fileError error)

def writeBytes (path : String) (content : List Byte) : IO (Except FileError Unit) := do
  try
    IO.FS.writeBinFile path (ByteArray.mk content.toArray)
    return .ok ()
  catch error => return .error (fileError error)

partial def settle (machine : Machine) : IO Machine :=
  if machine.status.isHalted then return machine else settle machine.step

/-- Writes the log to the second stream, unless it is turned off. -/
def writeLog (events : List Event) : IO Unit := do
  unless (← IO.getEnv "LUX_LOG") == some "off" do
    for event in events do
      IO.eprintln event.text

def perform : Session → IO UInt32
  | .exit report => do
      writeLog report.log
      IO.eprint report.stderr
      IO.print report.stdout
      return report.code.toUInt32
  | .readFile path next => do
      let content ← readBytes path
      perform (next content)
  | .writeFile path content next => do
      let result ← writeBytes path content
      perform (next result)
  | .settle machine next => do
      let halted ← settle machine
      perform (next halted)

end ByteMachine.CommandLine

def main (arguments : List String) : IO UInt32 :=
  ByteMachine.CommandLine.perform (ByteMachine.CommandLine.session arguments)
