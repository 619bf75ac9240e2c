import ByteMachine.Machine.Execute

namespace ByteMachine

/-! Steps and runs of a machine, and the events that they report. -/

inductive Event where
  | executing (offset : Nat) (instruction : Instruction)
  /-- The end of the program, with the machine's count of steps. -/
  | finished (steps : Nat)
  | halted (fault : Fault)
  deriving DecidableEq, Repr

/-- A number in hexadecimal, with zeros in front up to four digits. -/
def offsetText (offset : Nat) : String :=
  "0x" ++ String.ofList ((Nat.toDigits 16 offset).leftpad 4 '0')

def Event.text : Event → String
  | executing offset instruction => "TRACE " ++ offsetText offset ++ "  " ++ instruction.text
  | finished steps => "DEBUG program finished after " ++ toString steps ++ " instructions"
  | halted fault => "WARN halted: " ++ fault.message

namespace Machine

structure Turn where
  /-- Whether an instruction was completed, or the fault that halted the machine. -/
  result : Except Fault Bool
  machine : Machine
  events : List Event

def halt (machine : Machine) (cause : Fault.Cause) (events : List Event) : Turn :=
  let fault : Fault := ⟨machine.offset, cause⟩
  { result := .error fault
    machine := { machine with status := .faulted fault }
    events := events ++ [.halted fault] }

def fetch (machine : Machine) : Turn :=
  let offset := machine.tape.cursor
  match machine.tape.decode with
  | (.error error, tape) =>
      { machine with tape := tape, offset := offset }.halt (.ofDecodeError error) []
  | (.ok instruction, tape) =>
      let events := [.executing offset instruction]
      match execute instruction { machine with tape := tape, offset := offset } with
      | .error cause left => left.halt cause events
      | .ok () executed =>
          { result := .ok true
            machine := { executed with steps := executed.steps + 1 }
            events := events }

/-- One step of a running machine: an instruction, or the end of the program. A halted
machine stays as it is. -/
def advance (machine : Machine) : Turn :=
  match machine.status with
  | .running =>
      if machine.tape.hasNext then machine.fetch
      else
        { result := .ok false
          machine := { machine with status := .finished }
          events := [.finished machine.steps] }
  | .finished => { result := .ok false, machine := machine, events := [] }
  | .faulted fault => { result := .error fault, machine := machine, events := [] }

def step (machine : Machine) : Machine :=
  machine.advance.machine

/-- The machine after at most `limit` steps; it stops early when it halts. -/
def run : (limit : Nat) → Machine → Machine
  | 0, machine => machine
  | limit + 1, machine =>
      if machine.status.isHalted then machine else run limit machine.step

@[simp] theorem run_zero (machine : Machine) : run 0 machine = machine := rfl

theorem advance_of_isHalted {machine : Machine} (halted : machine.status.isHalted = true) :
    machine.advance.machine = machine ∧ machine.advance.events = [] := by
  unfold advance
  cases status : machine.status with
  | running => simp [status, Status.isHalted] at halted
  | finished => exact ⟨rfl, rfl⟩
  | faulted fault => exact ⟨rfl, rfl⟩

theorem step_of_isHalted {machine : Machine} (halted : machine.status.isHalted = true) :
    machine.step = machine :=
  (advance_of_isHalted halted).1

theorem run_of_isHalted {machine : Machine} (halted : machine.status.isHalted = true)
    (limit : Nat) : run limit machine = machine := by
  cases limit with
  | zero => rfl
  | succ limit => simp [run, halted]

/-- Stopping early is not seen: a halted machine does not change. -/
theorem run_succ (limit : Nat) (machine : Machine) :
    run (limit + 1) machine = run limit machine.step := by
  cases halted : machine.status.isHalted with
  | false => simp [run, halted]
  | true => rw [run_of_isHalted halted, step_of_isHalted halted, run_of_isHalted halted]

theorem run_add (first second : Nat) (machine : Machine) :
    run (first + second) machine = run second (run first machine) := by
  induction first generalizing machine with
  | zero => simp
  | succ first ih =>
      rw [show first + 1 + second = first + second + 1 by omega, run_succ, run_succ, ih]

theorem run_succ_step (limit : Nat) (machine : Machine) :
    run (limit + 1) machine = (run limit machine).step := by
  rw [run_add, run_succ, run_zero]

end Machine

structure Recording where
  machine : Machine
  events : Array Event := #[]

namespace Recording

def step (recording : Recording) : Recording :=
  let turn := recording.machine.advance
  { machine := turn.machine, events := recording.events ++ turn.events }

def run : (limit : Nat) → Recording → Recording
  | 0, recording => recording
  | limit + 1, recording =>
      if recording.machine.status.isHalted then recording else run limit recording.step

@[simp] theorem machine_step (recording : Recording) :
    recording.step.machine = recording.machine.step := rfl

@[simp] theorem events_step (recording : Recording) :
    recording.step.events = recording.events ++ recording.machine.advance.events := rfl

@[simp] theorem machine_run (limit : Nat) (recording : Recording) :
    (run limit recording).machine = recording.machine.run limit := by
  induction limit generalizing recording with
  | zero => rfl
  | succ limit ih =>
      cases halted : recording.machine.status.isHalted with
      | false => simp [run, Machine.run, halted, ih]
      | true => simp [run, Machine.run, halted]

end Recording

end ByteMachine
