import ByteMachine.Proofs.Machine.Store

namespace ByteMachine

/-! What a move does. Its destination and its source decide how many bytes it writes; the
source is read as a number before anything is written, so the two may overlap. -/

/-- How many cells a move writes: as many as its destination is marked with, or else a
reference that it reads, or else one. -/
def Operand.moveSize (destination source : Operand) : Nat :=
  match destination.markedWidth?, source with
  | some width, _ => width.size
  | none, ref (some width) _ => width.size
  | none, _ => 1

@[simp] theorem Value.toNat_ofByte (byte : Byte) : (ofByte byte).toNat = byte.toNat := by
  simp [Packed.toNat, ofBigEndian]

namespace Machine

variable {machine left : Machine} {destination source : Operand} {address : Byte}
  {finish number : Nat} {value : Value}

/-- The number that a move reads, and where the cells end that it reads it from. A register
has no cells. -/
inductive Sources (machine : Machine) : Operand → (finish number : Nat) → Prop where
  | literal (byte : Byte) :
      Sources machine (.literal byte) (byte.toNat + 1) (machine.memory.byteAt byte).toNat
  | top : Sources machine .top 0 machine.stack.top.toNat
  | insPtr (small : machine.tape.cursor ≤ 255) : Sources machine .insPtr 0 machine.tape.cursor
  | cell {operand inner : Operand} {width : Width} {address : Byte}
      (cell : operand.cell? = some (width, inner))
      (resolved : machine.address inner = .ok address) :
      Sources machine operand (address.toNat + width.size)
        (ofBigEndian (machine.memory.cells.slice address.toNat width.size))

theorem moveSource_of_cell {inner : Operand} {width : Width}
    (cell : source.cell? = some (width, inner)) :
    machine.moveSource source = machine.value source := by
  cases source with
  | literal byte => cases cell
  | _ => rfl

theorem Sources.exists_value (sources : machine.Sources source finish number)
    (within : finish ≤ 256) :
    ∃ value, machine.moveSource source = .ok value ∧ value.toNat = number := by
  cases sources with
  | literal byte => exact ⟨_, rfl, Value.toNat_ofByte _⟩
  | top => exact ⟨_, rfl, Value.toNat_ofByte _⟩
  | insPtr small =>
      have same : (UInt8.ofNat machine.tape.cursor).toNat = machine.tape.cursor :=
        UInt8.toNat_ofNat_of_lt (Nat.lt_succ_of_le small)
      refine ⟨.ofByte (UInt8.ofNat machine.tape.cursor), ?_, ?_⟩
      · exact answer_map_eq_ok.mpr ⟨_, insPtr_eq_ok_iff.mpr same, rfl⟩
      · rw [Value.toNat_ofByte, same]
  | cell cell resolved =>
      obtain ⟨value, loaded⟩ := load_of_le within
      refine ⟨value, ?_, ?_⟩
      · rw [moveSource_of_cell cell, value_of_resolved cell resolved, loaded]
      · exact (number_of_load loaded).2

theorem Sources.moveSource_of_lt (sources : machine.Sources source finish number)
    (beyond : 256 < finish) :
    ∃ address width, machine.moveSource source = .error (.memoryOutOfRange address width) := by
  cases sources with
  | literal byte =>
      have bound := byte.toNat_lt
      omega
  | top => cases beyond
  | insPtr small => cases beyond
  | cell cell resolved =>
      rename_i inner width address
      refine ⟨address, width, ?_⟩
      rw [moveSource_of_cell cell, value_of_resolved cell resolved, load_of_lt beyond]

theorem Sources.value_eq (sources : machine.Sources source finish number)
    (named : machine.moveSource source = .ok value) : finish ≤ 256 ∧ value.toNat = number := by
  rcases Nat.lt_or_ge 256 finish with beyond | within
  · obtain ⟨address, width, denied⟩ := sources.moveSource_of_lt beyond
    rw [denied] at named
    cases named
  · obtain ⟨other, found, counted⟩ := sources.exists_value within
    rw [found] at named
    cases named
    exact ⟨within, counted⟩

/-- What can be moved has a source, and is as wide as it is marked. -/
theorem sources_of_moveSource (named : machine.moveSource source = .ok value) :
    (∃ finish number, machine.Sources source finish number) ∧
      value.width = (source.cell?.map Prod.fst).getD .byte := by
  have ofCell {inner : Operand} {width : Width} (cell : source.cell? = some (width, inner)) :
      (∃ finish number, machine.Sources source finish number) ∧ value.width = width := by
    rw [moveSource_of_cell cell, value_of_cell cell] at named
    obtain ⟨address, resolved, loaded⟩ := answer_bind_eq_ok.mp named
    exact ⟨⟨_, _, .cell cell resolved⟩, (number_of_load loaded).1⟩
  cases source with
  | literal byte =>
      cases named
      exact ⟨⟨_, _, .literal _⟩, rfl⟩
  | top =>
      cases named
      exact ⟨⟨_, _, .top⟩, rfl⟩
  | insPtr =>
      obtain ⟨byte, counted, rfl⟩ := answer_map_eq_ok.mp named
      have small := byte.toNat_lt
      rw [insPtr_eq_ok_iff] at counted
      exact ⟨⟨_, _, .insPtr (by omega)⟩, rfl⟩
  | ref width inner => exact ofCell rfl
  | sized width inner => exact ofCell rfl

theorem size_resize (address : Byte) (destination : Operand)
    (wide : value.width = (source.cell?.map Prod.fst).getD .byte) :
    (value.resize (moveWidth ⟨address, destination.markedWidth?⟩ source value)).width.size =
      destination.moveSize source := by
  rw [Value.width_resize]
  unfold moveWidth Operand.moveSize
  cases destination.markedWidth? with
  | some width => rfl
  | none =>
      cases source with
      | ref width inner => cases width <;> exact congrArg Width.size wide
      | sized width inner => rfl
      | literal byte => exact congrArg Width.size wide
      | top => exact congrArg Width.size wide
      | insPtr => exact congrArg Width.size wide

section Execute

variable (targets : machine.Targets destination address)
  (sources : machine.Sources source finish number)

include targets sources

theorem execute_move_of_source_lt (beyond : 256 < finish) :
    ∃ blamed width, execute (.move destination source) machine =
      .error (.memoryOutOfRange blamed width) machine := by
  obtain ⟨blamed, width, denied⟩ := sources.moveSource_of_lt beyond
  refine ⟨blamed, width, ?_⟩
  apply (ask_bind_of_ok targets.destination_eq).trans
  exact ask_bind_of_error denied

theorem execute_move_of_lt (within : finish ≤ 256)
    (beyond : 256 < address.toNat + destination.moveSize source) :
    ∃ blamed width, execute (.move destination source) machine =
      .error (.memoryOutOfRange blamed width) machine := by
  obtain ⟨value, named, -⟩ := sources.exists_value within
  rw [← size_resize address destination (sources_of_moveSource named).2] at beyond
  refine ⟨address, moveWidth ⟨address, destination.markedWidth?⟩ source value, ?_⟩
  apply (ask_bind_of_ok targets.destination_eq).trans
  apply (ask_bind_of_ok named).trans
  exact store_of_lt beyond

theorem execute_move_of_le (within : finish ≤ 256)
    (fits : address.toNat + destination.moveSize source ≤ 256) :
    ∃ left, Executes machine (.move destination source) left := by
  obtain ⟨value, named, -⟩ := sources.exists_value within
  rw [← size_resize address destination (sources_of_moveSource named).2] at fits
  obtain ⟨memory, written⟩ := Memory.write_of_le fits
  exact ⟨_, .move targets.destination_eq named written⟩

theorem Executes.stores_of_move (executes : Executes machine (.move destination source) left) :
    machine.Stores left address.toNat (destination.moveSize source)
      (number % 2 ^ (8 * destination.moveSize source)) := by
  cases executes with
  | move resolved named written =>
      rename_i cell value memory
      rw [targets.destination_eq] at resolved
      cases resolved
      obtain ⟨-, rfl⟩ := sources.value_eq named
      have stores := stores_of_write written
      rw [Value.toNat_resize, Width.bits, Value.width_resize] at stores
      have size := size_resize address destination (sources_of_moveSource named).2
      rw [Value.width_resize] at size
      rw [size] at stores
      exact stores

end Execute

theorem Executes.resolves_of_move
    (executes : Executes machine (.move destination source) left) :
    ∃ address finish number, machine.Targets destination address ∧
      machine.Sources source finish number := by
  cases executes with
  | move resolved named written =>
      obtain ⟨⟨finish, number, sources⟩, -⟩ := sources_of_moveSource named
      exact ⟨_, finish, number, (destination_eq_ok_iff.mp resolved).1, sources⟩

theorem move_outcome (running : machine.status = .running)
    (decoded : machine.tape.decode.1 = .ok (.move destination source))
    (targets : machine.fetched.Targets destination address)
    (sources : machine.fetched.Sources source finish number) :
    (machine.advance.result = .ok true ∧
      finish ≤ 256 ∧ address.toNat + destination.moveSize source ≤ 256) ∨
    ((∃ blamed width, machine.advance.result =
        .error ⟨machine.tape.cursor, .memoryOutOfRange blamed width⟩) ∧
      (256 < finish ∨ 256 < address.toNat + destination.moveSize source)) := by
  rcases Nat.lt_or_ge 256 finish with beyond | within
  · obtain ⟨blamed, width, failed⟩ := execute_move_of_source_lt targets sources beyond
    exact .inr ⟨⟨blamed, width, faulted_of_execute running decoded failed⟩, .inl beyond⟩
  · rcases Nat.lt_or_ge 256 (address.toNat + destination.moveSize source) with beyond | fits
    · obtain ⟨blamed, width, failed⟩ := execute_move_of_lt targets sources within beyond
      exact .inr ⟨⟨blamed, width, faulted_of_execute running decoded failed⟩, .inr beyond⟩
    · obtain ⟨left, executes⟩ := execute_move_of_le targets sources within fits
      exact .inl ⟨completed_of_executes running decoded executes, within, fits⟩

/-- A move that completes writes as many bytes of its source as the two operands say, all of
it read before. If both operands name something, it completes just if all the cells are in
memory, and fails at the end of memory otherwise. -/
theorem move_copies_number (running : machine.status = .running)
    (decoded : machine.tape.decode.1 = .ok (.move destination source)) :
    (machine.advance.result = .ok true →
      ∃ address finish number, machine.fetched.Targets destination address ∧
        machine.fetched.Sources source finish number) ∧
    ∀ address finish number, machine.fetched.Targets destination address →
      machine.fetched.Sources source finish number →
      (machine.advance.result = .ok true →
        machine.Stores machine.step address.toNat (destination.moveSize source)
          (number % 2 ^ (8 * destination.moveSize source))) ∧
      (machine.advance.result = .ok true ↔
        finish ≤ 256 ∧ address.toNat + destination.moveSize source ≤ 256) ∧
      ((∃ blamed width, machine.advance.result =
          .error ⟨machine.tape.cursor, .memoryOutOfRange blamed width⟩) ↔
        256 < finish ∨ 256 < address.toNat + destination.moveSize source) := by
  constructor
  · intro completed
    obtain ⟨left, executes, -⟩ := executes_of_completed decoded completed
    exact executes.resolves_of_move
  · intro address finish number targets sources
    constructor
    · intro completed
      exact stores_of_completed decoded completed fun left executes =>
        executes.stores_of_move targets sources
    · rcases move_outcome running decoded targets sources with
        ⟨completed, within, fits⟩ | ⟨⟨blamed, width, faulted⟩, beyond⟩
      · rw [completed]
        exact ⟨⟨fun _ => ⟨within, fits⟩, fun _ => rfl⟩, nofun, by omega⟩
      · rw [faulted]
        exact ⟨⟨nofun, by omega⟩, fun _ => beyond, fun _ => ⟨blamed, width, rfl⟩⟩

/-- Four bytes are moved on by one cell, over three of their own. -/
theorem move_copies_number_overlap :
    let machine := (start { bytes := [0xed, 0x10, 1, 2, 3, 4, 0xff, 0xc4, 0x11, 0xc4, 0x10] }).step
    machine.status = .running ∧
      machine.tape.decode.1 = .ok (.move (.sized .doubleWord (.literal 0x11))
        (.sized .doubleWord (.literal 0x10))) ∧
      machine.advance.result = .ok true ∧
      machine.Stores machine.step 0x11 4 0x01020304 := by
  intro machine
  have decoded : machine.tape.decode.1 = .ok (.move (.sized .doubleWord (.literal 0x11))
      (.sized .doubleWord (.literal 0x10))) := by rfl
  have completed : machine.advance.result = .ok true :=
    answer_toOption_eq_some.mp (by decide +kernel)
  have sources : machine.fetched.Sources (.sized .doubleWord (.literal 0x10)) 0x14
      (ofBigEndian (machine.fetched.memory.cells.slice 0x10 4)) :=
    @Sources.cell machine.fetched _ _ .doubleWord 0x10 rfl rfl
  have number : ofBigEndian (machine.fetched.memory.cells.slice 0x10 4) = 0x01020304 := by
    decide +kernel
  rw [number] at sources
  have moved := (move_copies_number rfl decoded).2 0x11 0x14 0x01020304 (.sized rfl) sources
  exact ⟨rfl, decoded, completed, moved.1 completed⟩

end Machine

end ByteMachine
