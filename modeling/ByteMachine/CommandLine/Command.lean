import ByteMachine.Assembly.Assemble
import ByteMachine.CommandLine.RunOptions
import ByteMachine.CommandLine.Session
import ByteMachine.Listing

namespace ByteMachine.CommandLine

/-! The commands: assembling a text, listing a program and running it. -/

def usage : String :=
  "Usage: lux <command> [args]\n" ++
  "\n" ++
  "Commands:\n" ++
  "  assemble <input.lasm> [-o output.luxb]        Assemble text to bytecode\n" ++
  "  disassemble <input.luxb>                      Disassemble bytecode to text\n" ++
  "  run <input.luxb> [--max-steps N] [--dump]     Execute bytecode\n"

def fail (message : String) : Session :=
  .exit { code := .failure, stderr := message }

def cannotRead (path : String) (error : FileError) : Session :=
  fail ("error: cannot read '" ++ path ++ "': " ++ error.message ++ "\n")

def cannotWrite (path : String) (error : FileError) : Session :=
  fail ("error: cannot write '" ++ path ++ "': " ++ error.message ++ "\n")

def textOf (content : List Byte) : Except FileError String :=
  match String.fromUTF8? (ByteArray.mk content.toArray) with
  | some text => .ok text
  | none => .error .notText

/-- The input's name with the extension of programs in the place of that of texts, if it
has the latter. -/
def defaultOutput (input : String) : String :=
  let chars := input.toList
  let extension := ".lasm".toList
  let stem :=
    if extension.isSuffixOf chars then chars.take (chars.length - extension.length)
    else chars
  String.ofList stem ++ ".luxb"

/-- Where the program goes; the option counts only directly behind the input. -/
def outputName (input : String) : List String → String
  | "-o" :: output :: _ => output
  | _ => defaultOutput input

def assembleTo (output text : String) : Session :=
  match Assembly.assemble text with
  | .error error => fail ("error: " ++ error.message ++ "\n")
  | .ok program =>
      .writeFile output program fun
        | .error error => cannotWrite output error
        | .ok () =>
            .exit {
              code := .success
              stderr := "assembled " ++ toString program.length ++ " bytes -> " ++ output ++ "\n" }

def assemble : List String → Session
  | [] =>
      fail ("error: assemble requires an input file\n" ++
        "Usage: lux assemble <input.lasm> [-o output.luxb]\n")
  | input :: options =>
      .readFile input fun content =>
        match content.bind textOf with
        | .error error => cannotRead input error
        | .ok text => assembleTo (outputName input options) text

def disassemble : List String → Session
  | [] =>
      fail ("error: disassemble requires an input file\n" ++
        "Usage: lux disassemble <input.luxb>\n")
  | input :: _ =>
      .readFile input fun
        | .error error => cannotRead input error
        | .ok content =>
            .exit { code := .success, stdout := Tape.listing { bytes := content } }

def memoryRow (memory : Memory) (row : Nat) : String :=
  "  " ++ Byte.text (UInt8.ofNat (16 * row)) ++ ": " ++
    String.intercalate " " ((memory.cells.slice (16 * row) 16).map Byte.hex) ++ "\n"

def dump (machine : Machine) : String :=
  "memory:\n" ++ String.join ((List.range 16).map (memoryRow machine.memory)) ++
    "stack (" ++ toString machine.stack.pointer ++ " bytes): " ++
    Byte.texts machine.stack.contents ++ "\n"

/-- How a run ended. A machine that has not halted stopped at its step count; if it is at
the end of the program, it is done all the same. -/
def runReport (options : RunOptions) (machine : Machine) : Report :=
  let dumped := if options.dump then dump machine else ""
  let done : Report :=
    { code := .success, stdout := Byte.texts machine.stack.contents ++ "\n" ++ dumped }
  match machine.status with
  | .faulted fault =>
      { code := .fault
        stdout := dumped
        stderr := "runtime error: " ++ fault.message ++ "\n"
        log := [.halted fault] }
  | .finished => done
  | .running =>
      if machine.tape.hasNext then
        { code := .exhausted
          stdout := dumped
          stderr :=
            "error: step budget exhausted after " ++ toString machine.steps ++
              " instructions (next offset " ++ offsetText machine.tape.cursor ++ ")\n" }
      else done

def runProgram (options : RunOptions) (program : List Byte) : Session :=
  let machine := Machine.start { bytes := program }
  match options.maxSteps with
  | some budget => .exit (runReport options (machine.run budget))
  | none => .settle machine fun halted => .exit (runReport options halted)

/-- The options are read before the file. -/
def run : List String → Session
  | [] => fail ("error: run requires an input file\n" ++ RunOptions.usage)
  | input :: arguments =>
      match RunOptions.ofArguments arguments with
      | .error error => fail error.message
      | .ok options =>
          .readFile input fun
            | .error error => cannotRead input error
            | .ok content => runProgram options content

def session : List String → Session
  | [] => fail usage
  | "assemble" :: arguments => assemble arguments
  | "disassemble" :: arguments => disassemble arguments
  | "run" :: arguments => run arguments
  | "--help" :: _ | "-h" :: _ | "help" :: _ =>
      .exit { code := .success, stderr := usage }
  | command :: _ => fail ("error: unknown command '" ++ command ++ "'\n\n" ++ usage)

end ByteMachine.CommandLine
