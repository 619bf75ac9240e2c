import ByteMachine.AccessError
import ByteMachine.Assembly.Assemble
import ByteMachine.Assembly.Error
import ByteMachine.Assembly.Parse
import ByteMachine.Assembly.Statement
import ByteMachine.Assembly.Token
import ByteMachine.Byte
import ByteMachine.Cells
import ByteMachine.CommandLine.Command
import ByteMachine.CommandLine.Directory
import ByteMachine.CommandLine.RunOptions
import ByteMachine.CommandLine.Session
import ByteMachine.Decode
import ByteMachine.DecodeError
import ByteMachine.Fault
import ByteMachine.Instruction
import ByteMachine.Listing
import ByteMachine.Machine.Basic
import ByteMachine.Machine.Execute
import ByteMachine.Machine.Resolve
import ByteMachine.Machine.Step
import ByteMachine.Main
import ByteMachine.Memory
import ByteMachine.Opcode
import ByteMachine.Operand
import ByteMachine.Operation
import ByteMachine.Packed
import ByteMachine.Stack
import ByteMachine.Tape
import ByteMachine.Text.Numeral
import ByteMachine.Text.Split
import ByteMachine.Text.Uppercase
import ByteMachine.Text.Whitespace
import ByteMachine.Value
import ByteMachine.Width
import ByteMachine.Proofs.Encoding.Decode
import ByteMachine.Proofs.Encoding.Tape
import ByteMachine.Proofs.Assembly.Spelling
import ByteMachine.Proofs.Machine.Atomic
import ByteMachine.Proofs.Assembly.Parse
import ByteMachine.Proofs.Assembly.Lines
import ByteMachine.Proofs.Assembly.Lossless
import ByteMachine.Proofs.Assembly.Accepted
import ByteMachine.Proofs.Assembly.Language
import ByteMachine.Proofs.Encoding.Exact
import ByteMachine.Proofs.Encoding.Truncation
import ByteMachine.Proofs.Machine.Effect
import ByteMachine.Proofs.Machine.Invariant
import ByteMachine.Proofs.Machine.Locality
import ByteMachine.Proofs.CommandLine.Budget
import ByteMachine.Proofs.Encoding.Misread
import ByteMachine.Proofs.Machine.Diagnosis
import ByteMachine.Proofs.Assembly.Canonical
import ByteMachine.Proofs.Machine.Log
import ByteMachine.Proofs.Machine.StraightLine
import ByteMachine.Proofs.Stack.Refinement
import ByteMachine.Proofs.Assembly.Join
import ByteMachine.Proofs.Assembly.Layout
import ByteMachine.Proofs.CommandLine.Directory
import ByteMachine.Proofs.CommandLine.Files
import ByteMachine.Proofs.Machine.Pointer
import ByteMachine.Proofs.Machine.Store
import ByteMachine.Proofs.Machine.Move
import ByteMachine.Proofs.Operation
import ByteMachine.Proofs.Machine.Bitwise
import ByteMachine.Proofs.Machine.Footprint
import ByteMachine.Proofs.Machine.Cursor
import ByteMachine.Proofs.Machine.Loop
import ByteMachine.Proofs.Assembly.Numeral
import ByteMachine.Proofs.Assembly.Range
import ByteMachine.Proofs.Assembly.Literal
import ByteMachine.Proofs.Assembly.Partition
import ByteMachine.Proofs.Memory.Access
import ByteMachine.Proofs.Value.Integers
import ByteMachine.Proofs.Machine.ByteMark
import ByteMachine.Proofs.Assembly.Missing
import ByteMachine.Proofs.Machine.Idempotent
import ByteMachine.Proofs.Tape
import ByteMachine.Proofs.Assembly.Nesting
import ByteMachine.Proofs.Encoding.Extent
import ByteMachine.Proofs.Assembly.Printed
import ByteMachine.Proofs.CommandLine.Options
