import ByteMachine.Proofs.Encoding.Tape
import ByteMachine.Proofs.Machine.Invariant

namespace ByteMachine

/-! A run depends only on the bytes that it executed. Each step is carried over to another
program that has the same bytes where the step reads. -/

/-- The decoder looks at no byte that it does not consume. -/
theorem Tape.decode_of_agree {tape moved : Tape} {decoded : Instruction}
    {program : List Byte} (read : tape.decode = (.ok decoded, moved))
    (agree : ∀ offset, tape.cursor ≤ offset → offset < moved.cursor →
      program[offset]? = tape.bytes[offset]?) :
    Tape.decode { tape with bytes := program } =
      (.ok decoded, { moved with bytes := program }) := by
  obtain ⟨valid, encoded, rfl⟩ := decode_eq_ok_iff.mp read
  refine decode_eq_ok_iff.mpr ⟨valid, ?_, rfl⟩
  rw [List.prefix_iff_getElem?] at encoded ⊢
  intro index within
  have same := agree (tape.cursor + index) (Nat.le_add_right _ _) (by dsimp only; omega)
  rw [← encoded index within]
  simpa only [rest, List.getElem?_drop] using same

namespace Machine

/-- The same machine with another program on its tape. -/
def withProgram (machine : Machine) (program : List Byte) : Machine :=
  { machine with tape := { machine.tape with bytes := program } }

/-! What an operand stands for does not depend on the program: memory and stack are apart
from it, and the instruction pointer is the cursor alone. -/

section Operand

variable (machine : Machine) (program : List Byte) (operand : Operand)

@[simp] theorem address_withProgram :
    (machine.withProgram program).address operand = machine.address operand := by
  induction operand with
  | literal byte => rfl
  | top => rfl
  | insPtr => rfl
  | ref width inner induction =>
      cases width with
      | none => simp only [address, induction]; rfl
      | some width =>
          cases width with
          | byte => simp only [address, induction]; rfl
          | _ => rfl
  | sized width inner induction => rfl

@[simp] theorem value_withProgram :
    (machine.withProgram program).value operand = machine.value operand := by
  cases operand with
  | ref width inner => simp only [value, address_withProgram]; rfl
  | sized width inner => simp only [value, address_withProgram]; rfl
  | _ => rfl

@[simp] theorem byte_withProgram :
    (machine.withProgram program).byte operand = machine.byte operand := by
  simp only [byte, value_withProgram]

@[simp] theorem destination_withProgram :
    (machine.withProgram program).destination operand = machine.destination operand := by
  cases operand with
  | ref width inner => simp only [destination, address_withProgram]; rfl
  | sized width inner => simp only [destination, address_withProgram]
  | _ => rfl

@[simp] theorem moveSource_withProgram :
    (machine.withProgram program).moveSource operand = machine.moveSource operand := by
  cases operand with
  | literal byte => rfl
  | _ => simp only [moveSource, value_withProgram]

@[simp] theorem jumpTarget_withProgram :
    (machine.withProgram program).jumpTarget operand = machine.jumpTarget operand := by
  cases operand <;> rfl

end Operand

variable {machine left : Machine} {program : List Byte} {instruction : Instruction}

/-- A jump within a program is one within a longer program too. -/
theorem Executes.withProgram (executes : Executes machine instruction left)
    (longer : machine.tape.bytes.length ≤ program.length) :
    Executes (machine.withProgram program) instruction (left.withProgram program) := by
  cases executes with
  | move resolved named written =>
      exact .move (by simpa using resolved) (by simpa using named) written
  | load resolved fits written => exact .load (by simpa using resolved) fits written
  | jump resolved within =>
      exact .jump (by simpa using resolved) (Nat.le_trans within longer)
  | push named pushed => exact .push (by simpa using named) pushed
  | pop popped => exact .pop popped
  | arithmetic leftNamed rightNamed computed pushed =>
      exact .arithmetic (by simpa using leftNamed) (by simpa using rightNamed) computed pushed
  | compare leftNamed rightNamed pushed =>
      exact .compare (by simpa using leftNamed) (by simpa using rightNamed) pushed
  | branchTaken leftNamed rightNamed resolved holds within =>
      exact .branchTaken (by simpa using leftNamed) (by simpa using rightNamed)
        (by simpa using resolved) holds (Nat.le_trans within longer)
  | branchPassed leftNamed rightNamed resolved fails =>
      exact .branchPassed (by simpa using leftNamed) (by simpa using rightNamed)
        (by simpa using resolved) fails
  | bitwise resolved named loaded written =>
      exact .bitwise (by simpa using resolved) (by simpa using named) loaded written
  | invert resolved loaded written =>
      exact .invert (by simpa using resolved) loaded written

/-- The byte at the offset is one of those that the next instruction is decoded from. -/
def Consumes (machine : Machine) (offset : Nat) : Prop :=
  machine.tape.cursor ≤ offset ∧ offset < machine.tape.decode.2.cursor

theorem advance_of_executes {moved : Tape} (running : machine.status = .running)
    (more : machine.tape.hasNext = true)
    (decoded : machine.tape.decode = (.ok instruction, moved))
    (executes : Executes
      { machine with tape := moved, offset := machine.tape.cursor } instruction left) :
    machine.advance.result = .ok true ∧
      machine.step = { left with steps := left.steps + 1 } := by
  unfold step advance
  simp only [running, more, if_true]
  unfold fetch
  simp only [decoded, execute_eq_ok_iff.mpr executes, and_self]

/-- A completed step is the same on another program that has the bytes it consumes. -/
theorem step_withProgram (completed : machine.advance.result = .ok true)
    (longer : machine.tape.bytes.length ≤ program.length)
    (agree : ∀ offset, machine.Consumes offset →
      program[offset]? = machine.tape.bytes[offset]?) :
    (machine.withProgram program).advance.result = .ok true ∧
      (machine.withProgram program).step = machine.step.withProgram program := by
  have steps := steps_advance machine
  rw [completed] at steps
  generalize machine.step = after at steps ⊢
  cases steps with
  | completes running more decoded executes =>
      have inside : machine.tape.cursor < machine.tape.bytes.length := by
        simpa [Tape.hasNext] using more
      obtain ⟨same, -⟩ := Tape.read_moves decoded (Nat.le_of_lt inside)
      have runs : (machine.withProgram program).status = .running := running
      have longerMore : (machine.withProgram program).tape.hasNext = true :=
        decide_eq_true (Nat.lt_of_lt_of_le inside longer)
      have read := Tape.decode_of_agree decoded fun offset lower upper =>
        agree offset ⟨lower, by rwa [decoded]⟩
      exact advance_of_executes runs longerMore read (executes.withProgram (same ▸ longer))

section Runs

variable {first second : Tape} {count : Nat}

theorem run_withProgram
    (completed : ∀ index < count, ((start first).run index).advance.result = .ok true)
    (longer : first.bytes.length ≤ second.bytes.length)
    (agree : ∀ index < count, ∀ offset, ((start first).run index).Consumes offset →
      second.bytes[offset]? = first.bytes[offset]?) {index : Nat} (within : index ≤ count) :
    (start second).run index = ((start first).run index).withProgram second.bytes := by
  induction index with
  | zero => rfl
  | succ index induction =>
      have same := ((invariant_start first).run index).bytes
      obtain ⟨-, stepped⟩ := step_withProgram (completed index within) (same ▸ longer)
        (same ▸ agree index within)
      rw [run_succ_step, run_succ_step, induction (Nat.le_of_succ_le within), stepped]

/-- The first steps on the second tape all complete, and the machine after each of them is
the one on the first tape. -/
structure RunsAlike (count : Nat) (first second : Tape) : Prop where
  completed : ∀ index < count, ((start second).run index).advance.result = .ok true
  memory : ∀ index ≤ count,
    ((start second).run index).memory = ((start first).run index).memory
  stack : ∀ index ≤ count,
    ((start second).run index).stack = ((start first).run index).stack
  cursor : ∀ index ≤ count,
    ((start second).run index).tape.cursor = ((start first).run index).tape.cursor
  steps : ∀ index ≤ count,
    ((start second).run index).steps = ((start first).run index).steps

theorem runsAlike_of_agree
    (completed : ∀ index < count, ((start first).run index).advance.result = .ok true)
    (longer : first.bytes.length ≤ second.bytes.length)
    (agree : ∀ index < count, ∀ offset, ((start first).run index).Consumes offset →
      second.bytes[offset]? = first.bytes[offset]?) :
    RunsAlike count first second := by
  have carried : ∀ index ≤ count,
      (start second).run index = ((start first).run index).withProgram second.bytes :=
    fun index within => run_withProgram completed longer agree within
  refine {
    completed := fun index before => ?_
    memory := fun index within => by rw [carried index within]; rfl
    stack := fun index within => by rw [carried index within]; rfl
    cursor := fun index within => by rw [carried index within]; rfl
    steps := fun index within => by rw [carried index within]; rfl }
  have same := ((invariant_start first).run index).bytes
  rw [carried index (Nat.le_of_lt before)]
  exact (step_withProgram (completed index before) (same ▸ longer)
    (same ▸ agree index before)).1

theorem Consumes.lt_length {index offset : Nat}
    (consumes : ((start first).run index).Consumes offset) : offset < first.bytes.length := by
  have invariant := (invariant_start first).run index
  have bound := Tape.cursor_read_le Decode.instruction (invariant.bytes ▸ invariant.cursor)
  rw [invariant.bytes] at bound
  exact Nat.lt_of_lt_of_le consumes.2 bound

/-- A longer program that has the executed bytes runs alike, and so does the program with
anything behind it. -/
theorem run_depends_on_executed
    (completed : ∀ index < count, ((start first).run index).advance.result = .ok true) :
    (∀ second : Tape, first.bytes.length ≤ second.bytes.length →
      (∀ index < count, ∀ offset, ((start first).run index).Consumes offset →
        second.bytes[offset]? = first.bytes[offset]?) →
      RunsAlike count first second) ∧
    ∀ suffix, RunsAlike count first { bytes := first.bytes ++ suffix } := by
  constructor
  · intro second longer agree
    exact runsAlike_of_agree completed longer agree
  · intro suffix
    refine runsAlike_of_agree completed (by simp) fun index before offset consumes => ?_
    exact List.getElem?_append_left consumes.lt_length

end Runs

/-- A push, a jump over one byte, and a pop. The other program has another byte there. -/
theorem run_depends_on_executed_jump :
    let first : Tape := { bytes := [0xfd, 0x01, 0xfe, 0x05, 0x07, 0xfc] }
    let second : Tape := { bytes := [0xfd, 0x01, 0xfe, 0x05, 0xff, 0xfc, 0xaa] }
    (∀ index < 3, ((start first).run index).advance.result = .ok true) ∧
      RunsAlike 3 first second ∧
      RunsAlike 3 first { bytes := [0xfd, 0x01, 0xfe, 0x05, 0x07, 0xfc, 0xaa] } := by
  intro first second
  have completed : ∀ index < 3, ((start first).run index).advance.result = .ok true := by
    intro index before
    obtain rfl | rfl | rfl : index = 0 ∨ index = 1 ∨ index = 2 := by omega
    all_goals rfl
  have agree : ∀ index < 3, ∀ offset, ((start first).run index).Consumes offset →
      second.bytes[offset]? = first.bytes[offset]? := by
    intro index before offset ⟨lower, upper⟩
    obtain rfl | rfl | rfl : index = 0 ∨ index = 1 ∨ index = 2 := by omega
    · change offset < 2 at upper
      obtain rfl | rfl : offset = 0 ∨ offset = 1 := by omega
      all_goals rfl
    · change 2 ≤ offset at lower
      change offset < 4 at upper
      obtain rfl | rfl : offset = 2 ∨ offset = 3 := by omega
      all_goals rfl
    · change 5 ≤ offset at lower
      change offset < 6 at upper
      obtain rfl : offset = 5 := by omega
      rfl
  exact ⟨completed, (run_depends_on_executed completed).1 second (by decide) agree,
    (run_depends_on_executed completed).2 [0xaa]⟩

end Machine

end ByteMachine
