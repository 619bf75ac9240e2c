import ByteMachine.Proofs.Machine.Effect
import ByteMachine.Proofs.Stack

namespace ByteMachine.Machine

/-! What holds of a machine after any calls. -/

/-- A call is a single step, or a run until the machine halts. -/
inductive Call where
  | step
  | run

/-- The call returns on the first machine and leaves the second one. -/
inductive Call.Leaves : Call → Machine → Machine → Prop where
  | step (machine : Machine) : Leaves .step machine machine.step
  | run {machine : Machine} {limit : Nat}
      (halted : (machine.run limit).status.isHalted = true) :
      Leaves .run machine (machine.run limit)

/-- The machine is left by calls that all return, one after the other, on a new machine
for the tape. -/
inductive Reached (tape : Tape) : Machine → Prop where
  | start : Reached tape (start tape)
  | call {call : Call} {machine left : Machine} (reached : Reached tape machine)
      (leaves : call.Leaves machine left) : Reached tape left

structure Invariant (program : List Byte) (machine : Machine) : Prop where
  bytes : machine.tape.bytes = program
  cursor : machine.tape.cursor ≤ program.length
  memory : machine.memory.toList.length = 256 := machine.memory.length_toList
  cells : machine.stack.cells.toList.length = 1024 := Vector.length_toList
  stack : machine.stack.Clear
  pointer : machine.stack.pointer ≤ machine.steps
  finished : machine.status = .finished → machine.tape.cursor = program.length
  faulted : ∀ fault, machine.status = .faulted fault →
    fault.offset = machine.offset ∧ machine.offset < program.length

variable {program : List Byte} {machine left : Machine}

theorem invariant_start (tape : Tape) : Invariant tape.bytes (start tape) where
  bytes := rfl
  cursor := Nat.zero_le _
  stack := Stack.clear_empty
  pointer := Nat.zero_le _
  finished := nofun
  faulted := nofun

/-- Each completed instruction is counted, so that one pushed byte more is too. -/
theorem Executes.stack_clear {instruction : Instruction}
    (executes : Executes machine instruction left) (clear : machine.stack.Clear) :
    left.stack.Clear ∧ left.stack.pointer ≤ machine.stack.pointer + 1 := by
  rcases executes.stack with same | ⟨byte, pushed⟩ | ⟨byte, popped⟩
  · rw [same]
    exact ⟨clear, Nat.le_succ _⟩
  · refine ⟨clear.push pushed, ?_⟩
    obtain ⟨-, shape⟩ := Stack.push_eq_ok_iff.mp pushed
    rw [shape]
    exact Nat.le_refl _
  · refine ⟨clear.pop popped, ?_⟩
    obtain ⟨last, pointer, -, shape⟩ := Stack.pop_eq_ok_iff.mp popped
    rw [shape]
    dsimp only
    omega

theorem Invariant.faults (invariant : Invariant program machine)
    (more : machine.tape.hasNext = true) {moved : Tape}
    {result : Except DecodeError Instruction}
    (decoded : machine.tape.decode = (result, moved)) (cause : Fault.Cause) :
    Invariant program
      { machine with
        tape := moved
        offset := machine.tape.cursor
        status := .faulted ⟨machine.tape.cursor, cause⟩ } := by
  obtain rfl := invariant.bytes
  obtain ⟨same, within⟩ := Tape.read_moves decoded invariant.cursor
  have inside : machine.tape.cursor < machine.tape.bytes.length := by
    simpa [Tape.hasNext] using more
  refine { invariant with bytes := same, cursor := within, finished := nofun, faulted := ?_ }
  rintro fault ⟨⟩
  exact ⟨rfl, inside⟩

theorem Invariant.completes (invariant : Invariant program machine)
    (running : machine.status = .running) {moved : Tape} {instruction : Instruction}
    (decoded : machine.tape.decode = (.ok instruction, moved))
    (executes : Executes { machine with tape := moved, offset := machine.tape.cursor }
      instruction left) :
    Invariant program { left with steps := left.steps + 1 } := by
  obtain rfl := invariant.bytes
  obtain ⟨same, within⟩ := Tape.read_moves decoded invariant.cursor
  obtain ⟨status, -, steps, bytes⟩ := executes.frame
  obtain ⟨clear, pointer⟩ := executes.stack_clear invariant.stack
  have counted := invariant.pointer
  dsimp only at status steps bytes pointer
  rw [running] at status
  refine {
    bytes := bytes.trans same
    cursor := ?_
    stack := clear
    pointer := by dsimp only; omega
    finished := fun halted => by simp [status] at halted
    faulted := fun fault halted => by simp [status] at halted }
  rcases executes.cursor with kept | jumped
  · exact kept ▸ within
  · exact same ▸ jumped

theorem Steps.invariant {result : Except Fault Bool} (steps : Steps machine result left)
    (invariant : Invariant program machine) : Invariant program left := by
  cases steps with
  | finished status => exact invariant
  | faulted status => exact invariant
  | ends running ended =>
      obtain rfl := invariant.bytes
      have passed : machine.tape.bytes.length ≤ machine.tape.cursor := by
        simpa [Tape.hasNext] using ended
      exact { invariant with
        finished := fun _ => Nat.le_antisymm invariant.cursor passed
        faulted := nofun }
  | misreads running more decoded => exact invariant.faults more decoded _
  | fails running more decoded failed => exact invariant.faults more decoded _
  | completes running more decoded executes =>
      exact invariant.completes running decoded executes

theorem Invariant.step (invariant : Invariant program machine) :
    Invariant program machine.step :=
  (steps_advance machine).invariant invariant

theorem Invariant.run (invariant : Invariant program machine) (limit : Nat) :
    Invariant program (machine.run limit) := by
  induction limit generalizing machine with
  | zero => exact invariant
  | succ limit induction =>
      rw [run_succ]
      exact induction invariant.step

/-- Calls in a row are one run of some number of steps. -/
theorem Reached.exists_run {tape : Tape} (reached : Reached tape machine) :
    ∃ count, machine = (Machine.start tape).run count := by
  induction reached with
  | start => exact ⟨0, rfl⟩
  | call reached leaves induction =>
      obtain ⟨count, rfl⟩ := induction
      cases leaves with
      | step machine => exact ⟨count + 1, (run_succ_step count _).symm⟩
      | run halted => exact ⟨_, (run_add count _ _).symm⟩

theorem Reached.pointer_le {tape : Tape} (reached : Reached tape machine) :
    machine.stack.pointer ≤ Stack.capacity := by
  obtain ⟨count, rfl⟩ := reached.exists_run
  exact ((invariant_start tape).run count).stack.pointer_le

theorem Reached.cursor_le_of_run {tape : Tape} (reached : Reached tape machine) (limit : Nat) :
    (machine.run limit).tape.cursor ≤ tape.bytes.length := by
  obtain ⟨count, rfl⟩ := reached.exists_run
  exact (((invariant_start tape).run count).run limit).cursor

theorem invariant_of_reached {tape : Tape} (reached : Reached tape machine) :
    Invariant tape.bytes machine := by
  induction reached with
  | start => exact invariant_start tape
  | call reached leaves induction =>
      cases leaves with
      | step machine => exact induction.step
      | run halted => exact induction.run _

/-- The tape starts at its end, and the run stops at the second of two pops. -/
theorem invariant_of_reached_underflow :
    let tape : Tape := ⟨[0xfd, 0x07, 0xfc, 0xfc], 4⟩
    let machine := (start tape).step.run 3
    Reached tape machine ∧ machine.status = .faulted ⟨3, .stackUnderflow⟩ ∧
      Invariant tape.bytes machine := by
  intro tape machine
  have halted : machine.status = .faulted ⟨3, .stackUnderflow⟩ := rfl
  have stepped : Reached tape (start tape).step := Reached.start.call (.step _)
  have reached : Reached tape machine := stepped.call (.run (by rw [halted]; rfl))
  exact ⟨reached, halted, invariant_of_reached reached⟩

end ByteMachine.Machine
