import ByteMachine.Proofs.Machine.Store
import ByteMachine.Proofs.Operation

namespace ByteMachine

/-! Instructions on the bits of a cell. Each makes another number of the one in its
destination, of as many bits; what else it reads it reads before it writes. -/

def Instruction.isOnBits : Instruction → Bool
  | bitwise _ _ _ | invert _ => true
  | _ => false

/-- The width of the cell that an operand names: a byte, if no marker says otherwise. -/
def Operand.cellWidth (operand : Operand) : Width :=
  operand.markedWidth?.getD .byte

namespace Machine

variable {machine left : Machine} {instruction : Instruction} {destination : Operand}
  {address : Byte} {width : Width} {change : Nat → Nat}

/-- The cell whose bits an instruction works on, and what it makes of the number there. -/
inductive Alters (machine : Machine) : Instruction → Byte → Width → (Nat → Nat) → Prop where
  | bitwise {op : Bitwise} {destination source : Operand} {address byte : Byte}
      (targets : machine.Targets destination address)
      (named : machine.byte source = .ok byte) :
      Alters machine (.bitwise op destination source) address destination.cellWidth
        fun cell => op.onNumber destination.cellWidth.bits cell byte.toNat
  | invert {destination : Operand} {address : Byte}
      (targets : machine.Targets destination address) :
      Alters machine (.invert destination) address destination.cellWidth
        fun cell => 2 ^ destination.cellWidth.bits - 1 - cell

theorem Executes.alters (onBits : instruction.isOnBits = true)
    (executes : Executes machine instruction left) :
    ∃ address width change, machine.Alters instruction address width change := by
  cases executes with
  | bitwise resolved named loaded written =>
      exact ⟨_, _, _, .bitwise (destination_eq_ok_iff.mp resolved).1 named⟩
  | invert resolved loaded written =>
      exact ⟨_, _, _, .invert (destination_eq_ok_iff.mp resolved).1⟩
  | _ => cases onBits

theorem Alters.exists_executes (alters : machine.Alters instruction address width change)
    (within : address.toNat + width.size ≤ 256) :
    ∃ left, Executes machine instruction left := by
  have writable (number : UInt64) :
      ∃ memory, machine.memory.write address (.ofUInt64 width number) = .ok memory :=
    Memory.write_of_le within
  cases alters with
  | bitwise targets named =>
      obtain ⟨value, loaded⟩ := load_of_le within
      obtain ⟨memory, written⟩ := writable _
      exact ⟨_, .bitwise targets.destination_eq named loaded written⟩
  | invert targets =>
      obtain ⟨value, loaded⟩ := load_of_le within
      obtain ⟨memory, written⟩ := writable _
      exact ⟨_, .invert targets.destination_eq loaded written⟩

theorem word_of_load {value : Value} (loaded : machine.load address width = .ok value) :
    value.toUInt64.toNat < 2 ^ width.bits ∧
      value.toUInt64.toNat =
        ofBigEndian (machine.memory.cells.slice address.toNat width.size) := by
  obtain ⟨rfl, counted⟩ := number_of_load loaded
  rw [value.toNat_toUInt64]
  exact ⟨value.toNat_lt, counted⟩

theorem stores_of_write_ofUInt64 {word : UInt64} {number : Nat} {memory : Memory}
    (written : machine.memory.write address (.ofUInt64 width word) = .ok memory)
    (low : word.toNat % 2 ^ width.bits = number) :
    machine.Stores { machine with memory := memory } address.toNat width.size number := by
  have stores := stores_of_write written
  rw [Value.toNat_ofUInt64, low] at stores
  exact stores

theorem Alters.stores (alters : machine.Alters instruction address width change)
    (executes : Executes machine instruction left) :
    machine.Stores left address.toNat width.size
      (change (ofBigEndian (machine.memory.cells.slice address.toNat width.size))) := by
  cases alters with
  | bitwise targets named =>
      rename_i op destination source byte
      cases executes with
      | bitwise resolved read loaded written =>
          rw [targets.destination_eq] at resolved
          rw [named] at read
          cases resolved
          cases read
          obtain ⟨fits, counted⟩ := word_of_load loaded
          have low := op.result_mod byte fits
          rw [counted] at low
          exact stores_of_write_ofUInt64 written low
  | invert targets =>
      cases executes with
      | invert resolved loaded written =>
          rw [targets.destination_eq] at resolved
          cases resolved
          obtain ⟨fits, counted⟩ := word_of_load loaded
          have low := complement_mod fits
          rw [counted] at low
          exact stores_of_write_ofUInt64 written low

/-- A shift by all the bits of the cell or more leaves none of them. -/
theorem Alters.eq_zero_of_shift {op : Bitwise} {source : Operand} {byte : Byte}
    (alters : machine.Alters (.bitwise op destination source) address width change)
    (shifts : op = .shiftRight ∨ op = .shiftLeft) (named : machine.byte source = .ok byte)
    (far : width.bits ≤ byte.toNat) {cell : Nat} (fits : cell < 2 ^ width.bits) :
    change cell = 0 := by
  cases alters with
  | bitwise targets read =>
      rw [named] at read
      cases read
      exact Bitwise.onNumber_shift_of_le shifts fits far

/-- An instruction on bits that completes replaces the number in its cell by the one that it
makes of it, and nothing else. If both operands name something, it completes just if the cell
is in memory: no shift is too far. -/
theorem bits_of_cell_replaced (running : machine.status = .running)
    (decoded : machine.tape.decode.1 = .ok instruction)
    (onBits : instruction.isOnBits = true) :
    (machine.advance.result = .ok true →
      ∃ address width change, machine.fetched.Alters instruction address width change) ∧
    ∀ address width change, machine.fetched.Alters instruction address width change →
      (machine.advance.result = .ok true ↔ address.toNat + width.size ≤ 256) ∧
      (machine.advance.result = .ok true →
        machine.Stores machine.step address.toNat width.size
          (change (ofBigEndian (machine.memory.cells.slice address.toNat width.size)))) ∧
      ∀ op destination source byte, instruction = .bitwise op destination source →
        op = .shiftRight ∨ op = .shiftLeft → machine.fetched.byte source = .ok byte →
        width.bits ≤ byte.toNat → machine.advance.result = .ok true →
        machine.Stores machine.step address.toNat width.size 0 := by
  have stored {address : Byte} {width : Width} {change : Nat → Nat}
      (alters : machine.fetched.Alters instruction address width change)
      (completed : machine.advance.result = .ok true) :
      machine.Stores machine.step address.toNat width.size
        (change (ofBigEndian (machine.memory.cells.slice address.toNat width.size))) :=
    stores_of_completed decoded completed fun left executes => alters.stores executes
  constructor
  · intro completed
    obtain ⟨left, executes, -⟩ := executes_of_completed decoded completed
    exact executes.alters onBits
  · intro address width change alters
    refine ⟨⟨fun completed => (stored alters completed).within, ?_⟩, stored alters, ?_⟩
    · intro within
      obtain ⟨left, executes⟩ := alters.exists_executes within
      exact completed_of_executes running decoded executes
    · rintro op destination source byte rfl shifts named far completed
      have stores := stored alters completed
      obtain ⟨value, loaded⟩ := load_of_le stores.within
      obtain ⟨fits, counted⟩ := word_of_load loaded
      rw [counted] at fits
      rw [alters.eq_zero_of_shift shifts named far fits] at stores
      exact stores

/-- The last of eight bytes says how far all of them are shifted, and its lowest bit ends as
the highest. -/
theorem bits_of_cell_replaced_shift :
    let machine := (start { bytes := [0xec, 0x10, 0, 0, 0, 0, 0, 0, 0, 63,
      0x95, 0xc5, 0x10, 0xc0, 0x17] }).step
    machine.status = .running ∧
      machine.tape.decode.1 = .ok (.bitwise .shiftLeft (.sized .quadWord (.literal 0x10))
        (.ref none (.literal 0x17))) ∧
      machine.advance.result = .ok true ∧
      machine.Stores machine.step 0x10 8 (2 ^ 63) := by
  intro machine
  have decoded : machine.tape.decode.1 = .ok (.bitwise .shiftLeft
      (.sized .quadWord (.literal 0x10)) (.ref none (.literal 0x17))) := by rfl
  have completed : machine.advance.result = .ok true :=
    answer_toOption_eq_some.mp (by decide +kernel)
  have named : machine.fetched.byte (.ref none (.literal 0x17)) = .ok 63 := by decide +kernel
  have cell : ofBigEndian (machine.memory.cells.slice 0x10 8) = 63 := by decide +kernel
  have stores := ((bits_of_cell_replaced rfl decoded rfl).2 0x10 .quadWord _
    (.bitwise (.sized rfl) named)).2.1 completed
  have number : Bitwise.shiftLeft.onNumber 64 63 63 = 2 ^ 63 := by decide
  refine ⟨rfl, decoded, completed, ?_⟩
  change machine.Stores machine.step 0x10 8 (Bitwise.shiftLeft.onNumber 64
    (ofBigEndian (machine.memory.cells.slice 0x10 8)) 63) at stores
  rw [cell, number] at stores
  exact stores

end Machine

end ByteMachine
