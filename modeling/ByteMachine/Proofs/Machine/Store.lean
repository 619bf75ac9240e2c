import ByteMachine.Proofs.Machine.Diagnosis
import ByteMachine.Proofs.Machine.Locality
import ByteMachine.Proofs.Machine.Pointer
import ByteMachine.Proofs.Value

namespace ByteMachine

/-! Steps that write to memory: where the destination of an instruction is, and what is in
memory afterwards. -/

/-- The width that a marker in front of an operand gives. -/
def Operand.markedWidth? : Operand → Option Width
  | ref width _ => width
  | sized width _ => some width
  | literal _ | top | insPtr => none

namespace Machine

variable {machine left : Machine} {instruction : Instruction} {operand : Operand}
  {address : Byte} {cause : Fault.Cause}

section Action

variable {α β : Type} {question : Machine → Except Fault.Cause α} {after : α → Action β}

theorem ask_bind_of_ok {answer : α} (asked : question machine = .ok answer) :
    (ask question >>= after) machine = after answer machine := by
  change EStateM.bind (ask question) after machine = _
  unfold EStateM.bind ask
  rw [asked]

theorem ask_bind_of_error (denied : question machine = .error cause) :
    (ask question >>= after) machine = .error cause machine := by
  change EStateM.bind (ask question) after machine = _
  unfold EStateM.bind ask
  rw [denied]

theorem store_of_lt {value : Value} (beyond : Memory.size < address.toNat + value.width.size) :
    store address value machine = .error (.memoryOutOfRange address value.width) machine :=
  store_eq_error.mpr ⟨beyond, rfl, rfl⟩

end Action

section Decoded

theorem decode_eq_of_fst (decoded : machine.tape.decode.1 = .ok instruction) :
    machine.tape.decode = (.ok instruction, machine.fetched.tape) :=
  Prod.ext decoded rfl

theorem hasNext_of_decode (decoded : machine.tape.decode.1 = .ok instruction) :
    machine.tape.hasNext = true := by
  obtain ⟨forward, within⟩ := Tape.cursor_of_decode (decode_eq_of_fst decoded)
  exact decide_eq_true (Nat.lt_of_lt_of_le forward within)

theorem executes_of_completed (decoded : machine.tape.decode.1 = .ok instruction)
    (completed : machine.advance.result = .ok true) :
    ∃ left, Executes machine.fetched instruction left ∧
      machine.step = { left with steps := left.steps + 1 } := by
  obtain ⟨after, stepped, steps⟩ := exists_steps completed
  cases steps with
  | completes running more found executes =>
      rw [decode_eq_of_fst decoded] at found
      cases found
      exact ⟨_, executes, stepped⟩

theorem completed_of_executes (running : machine.status = .running)
    (decoded : machine.tape.decode.1 = .ok instruction)
    (executes : Executes machine.fetched instruction left) :
    machine.advance.result = .ok true :=
  (advance_of_executes running (hasNext_of_decode decoded) (decode_eq_of_fst decoded)
    executes).1

theorem faulted_of_execute (running : machine.status = .running)
    (decoded : machine.tape.decode.1 = .ok instruction)
    (failed : execute instruction machine.fetched = .error cause machine.fetched) :
    machine.advance.result = .error ⟨machine.tape.cursor, cause⟩ := by
  change execute instruction
    { machine with tape := machine.fetched.tape, offset := machine.tape.cursor } = _ at failed
  unfold advance
  simp only [running, hasNext_of_decode decoded, if_true]
  unfold fetch
  simp only [decode_eq_of_fst decoded, failed]
  rfl

end Decoded

/-- The address that an instruction writes to. A reference writes where its cell points to. -/
inductive Targets (machine : Machine) : Operand → Byte → Prop where
  | literal (byte : Byte) : Targets machine (.literal byte) byte
  | top : Targets machine .top machine.stack.top
  | ref {width : Option Width} {inner : Operand} {pointer : Byte}
      (resolved : machine.address inner = .ok pointer) :
      Targets machine (.ref width inner) (machine.memory.byteAt pointer)
  | sized {width : Width} {inner : Operand} {address : Byte}
      (resolved : machine.address inner = .ok address) :
      Targets machine (.sized width inner) address

theorem destination_eq_ok_iff {width? : Option Width} :
    machine.destination operand = .ok ⟨address, width?⟩ ↔
      machine.Targets operand address ∧ width? = operand.markedWidth? := by
  constructor
  · intro resolved
    cases operand with
    | literal byte =>
        cases resolved
        exact ⟨.literal _, rfl⟩
    | top =>
        cases resolved
        exact ⟨.top, rfl⟩
    | insPtr => cases resolved
    | ref width inner =>
        obtain ⟨pointer, followed, ⟨⟩⟩ := answer_map_eq_ok.mp resolved
        exact ⟨.ref followed, rfl⟩
    | sized width inner =>
        obtain ⟨address, followed, ⟨⟩⟩ := answer_map_eq_ok.mp resolved
        exact ⟨.sized followed, rfl⟩
  · rintro ⟨targets, rfl⟩
    cases targets with
    | literal byte => rfl
    | top => rfl
    | ref resolved => exact answer_map_eq_ok.mpr ⟨_, resolved, rfl⟩
    | sized resolved => exact answer_map_eq_ok.mpr ⟨_, resolved, rfl⟩

theorem Targets.destination_eq (targets : machine.Targets operand address) :
    machine.destination operand = .ok ⟨address, operand.markedWidth?⟩ :=
  destination_eq_ok_iff.mpr ⟨targets, rfl⟩

theorem number_of_load {width : Width} {value : Value}
    (loaded : machine.load address width = .ok value) :
    value.width = width ∧
      value.toNat = ofBigEndian (machine.memory.cells.slice address.toNat width.size) := by
  obtain ⟨-, wide, bytes⟩ := Memory.read_eq_ok_iff.mp (load_eq_ok_iff.mp loaded)
  exact ⟨wide, congrArg ofBigEndian bytes⟩

/-- The second machine has the bytes of a number in consecutive cells, and in all others, as
on the stack, what the first one has. -/
structure Stores (machine left : Machine) (address count number : Nat) : Prop where
  fits : number < 2 ^ (8 * count)
  within : address + count ≤ 256
  cells : left.memory.toList = machine.memory.toList.take address ++
    bigEndian count number ++ machine.memory.toList.drop (address + count)
  stack : left.stack = machine.stack

theorem stores_of_write {value : Value} {memory : Memory}
    (written : machine.memory.write address value = .ok memory) :
    machine.Stores { machine with memory := memory } address.toNat value.width.size
      value.toNat := by
  obtain ⟨within, cells⟩ := Memory.write_eq_ok_iff.mp written
  rw [← value.bigEndian_toNat] at cells
  exact ⟨value.toNat_lt, within, cells, rfl⟩

theorem stores_of_completed {address count number : Nat}
    (decoded : machine.tape.decode.1 = .ok instruction)
    (completed : machine.advance.result = .ok true)
    (stores : ∀ left, Executes machine.fetched instruction left →
      machine.fetched.Stores left address count number) :
    machine.Stores machine.step address count number := by
  obtain ⟨left, executes, stepped⟩ := executes_of_completed decoded completed
  rw [stepped]
  exact { stores left executes with }

end Machine

end ByteMachine
