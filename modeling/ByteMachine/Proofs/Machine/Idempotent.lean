import ByteMachine.Proofs.Machine.Move

namespace ByteMachine

/-! A move between fixed addresses that is made again. If it writes just the cells that it
reads, or none of them, then it finds the same number as the first time, and changes nothing. -/

/-- The first cell that a move writes, if its destination names the cell outright. -/
inductive Operand.WritesFrom : Operand → Byte → Prop where
  | literal (address : Byte) : WritesFrom (.literal address) address
  | sized (width : Width) (address : Byte) : WritesFrom (.sized width (.literal address)) address

/-- The first cell that a move reads, and how many cells it reads, if its source names the
first one outright. -/
inductive Operand.ReadsFrom : Operand → Byte → Nat → Prop where
  | literal (address : Byte) : ReadsFrom (.literal address) address 1
  | sized (width : Width) (address : Byte) :
      ReadsFrom (.sized width (.literal address)) address width.size
  | ref (width : Option Width) (address : Byte) :
      ReadsFrom (.ref width (.literal address)) address (width.getD .byte).size

namespace Machine

variable {machine left later : Machine} {destination source : Operand} {target origin : Byte}
  {address other count length number : Nat}

namespace Stores

variable (stores : machine.Stores left address count number)

include stores

theorem length_within : address + (bigEndian count number).length ≤ Memory.size := by
  rw [length_bigEndian]
  exact stores.within

theorem cells_eq :
    left.memory.cells = machine.memory.cells.overwrite address (bigEndian count number) := by
  have same := machine.memory.cells.toList_overwrite address _ stores.length_within
  rw [length_bigEndian] at same
  exact Vector.toList_inj.mp (stores.cells.trans same.symm)

theorem slice_self : left.memory.cells.slice address count = bigEndian count number := by
  have same := machine.memory.cells.slice_overwrite_self address _ stores.length_within
  rwa [length_bigEndian, ← stores.cells_eq] at same

theorem slice_of_apart (apart : address + count ≤ other ∨ other + length ≤ address) :
    left.memory.cells.slice other length = machine.memory.cells.slice other length := by
  rw [stores.cells_eq]
  apply Cells.slice_overwrite_of_disjoint _ _ stores.length_within
  rw [length_bigEndian]
  exact apart.symm

/-- To store a number where it already is changes nothing. -/
theorem memory_of_slice
    (found : machine.memory.cells.slice address count = bigEndian count number) :
    left.memory = machine.memory := by
  apply Memory.toList_inj
  rw [stores.cells, ← found, Cells.slice, ← List.drop_drop, List.append_assoc]
  change List.take address machine.memory.toList ++
    (List.take count (List.drop address machine.memory.toList) ++
      List.drop count (List.drop address machine.memory.toList)) = machine.memory.toList
  rw [List.take_append_drop, List.take_append_drop]

end Stores

theorem targets_of_writesFrom (machine : Machine) (writes : destination.WritesFrom target) :
    machine.Targets destination target := by
  cases writes with
  | literal => exact .literal target
  | sized width => exact .sized rfl

theorem sources_of_readsFrom (machine : Machine) (reads : source.ReadsFrom origin length) :
    machine.Sources source (origin.toNat + length)
      (ofBigEndian (machine.memory.cells.slice origin.toNat length)) := by
  cases reads with
  | literal =>
      have single : ofBigEndian (machine.memory.cells.slice origin.toNat 1) =
          (machine.memory.byteAt origin).toNat := by
        rw [Cells.slice_one _ origin.toNat_lt]
        simp [ofBigEndian, Memory.byteAt]
      rw [single]
      exact .literal origin
  | sized width => exact .cell rfl rfl
  | ref width => exact .cell rfl rfl

section Move

variable (writes : destination.WritesFrom target) (reads : source.ReadsFrom origin length)

include writes reads

theorem stores_of_fixed_move
    (decoded : machine.tape.decode.1 = .ok (.move destination source))
    (completed : machine.advance.result = .ok true) :
    machine.Stores machine.step target.toNat (destination.moveSize source)
      (ofBigEndian (machine.memory.cells.slice origin.toNat length) %
        2 ^ (8 * destination.moveSize source)) :=
  stores_of_completed decoded completed fun _ executes =>
    executes.stores_of_move (targets_of_writesFrom _ writes) (sources_of_readsFrom _ reads)

theorem fixed_move_outcome (running : machine.status = .running)
    (decoded : machine.tape.decode.1 = .ok (.move destination source)) :
    (machine.advance.result = .ok true ↔
      origin.toNat + length ≤ 256 ∧ target.toNat + destination.moveSize source ≤ 256) ∧
    (machine.advance.result = .ok true ∨ ∃ fault, machine.advance.result = .error fault) := by
  have targets := targets_of_writesFrom machine.fetched writes
  have sources := sources_of_readsFrom machine.fetched reads
  rcases move_outcome running decoded targets sources with
    ⟨completed, inside⟩ | ⟨⟨blamed, width, faulted⟩, beyond⟩
  · exact ⟨⟨fun _ => inside, fun _ => completed⟩, .inl completed⟩
  · rw [faulted]
    exact ⟨⟨nofun, by omega⟩, .inr ⟨_, rfl⟩⟩

end Move

/-- The number that the cells hold does not change when it is stored over them, or apart from
them. -/
theorem Stores.number_of_apart
    (stores : machine.Stores left address count
      (ofBigEndian (machine.memory.cells.slice other length) % 2 ^ (8 * count)))
    (apart : (address + count ≤ other ∨ other + length ≤ address) ∨
      (address = other ∧ count = length)) :
    ofBigEndian (left.memory.cells.slice other length) % 2 ^ (8 * count) =
      ofBigEndian (machine.memory.cells.slice other length) % 2 ^ (8 * count) := by
  rcases apart with apart | ⟨rfl, rfl⟩
  · rw [stores.slice_of_apart apart]
  · rw [stores.slice_self, ofBigEndian_bigEndian, Nat.pow_mul, Nat.mod_mod, Nat.mod_mod]

/-- A move from a fixed address to a fixed address, whose cells are the same or do not meet,
changes nothing when the memory and the stack are those that it left before. The second move
completes just if the first one did. -/
theorem move_again (writes : destination.WritesFrom target) (reads : source.ReadsFrom origin length)
    (apart : (target.toNat + destination.moveSize source ≤ origin.toNat ∨
        origin.toNat + length ≤ target.toNat) ∨
      (target.toNat = origin.toNat ∧ destination.moveSize source = length))
    (running : machine.status = .running)
    (decoded : machine.tape.decode.1 = .ok (.move destination source))
    (memory : later.memory = machine.step.memory) (stack : later.stack = machine.step.stack)
    (resumed : later.status = .running)
    (repeated : later.tape.decode.1 = .ok (.move destination source)) :
    later.step.memory = machine.step.memory ∧ later.step.stack = machine.step.stack ∧
      (later.advance.result = .ok true ↔ machine.advance.result = .ok true) := by
  obtain ⟨completes, -⟩ := fixed_move_outcome writes reads running decoded
  obtain ⟨completesAgain, outcome⟩ := fixed_move_outcome writes reads resumed repeated
  have both := completesAgain.trans completes.symm
  rw [← memory, ← stack]
  rcases outcome with completed | ⟨fault, faulted⟩
  · have first := stores_of_fixed_move writes reads decoded (both.mp completed)
    have second := stores_of_fixed_move writes reads repeated completed
    -- The second move stores the number of the first one, which is already there.
    rw [memory, first.number_of_apart apart] at second
    refine ⟨second.memory_of_slice ?_, second.stack, both⟩
    rw [memory]
    exact first.slice_self
  · obtain ⟨sameMemory, sameStack, -⟩ := kept_of_failed faulted
    exact ⟨sameMemory, sameStack, both⟩

/-- Four bytes are moved to eight cells, twice in a row. -/
theorem move_again_widened :
    let machine := (start { bytes := [0xed, 0x10, 1, 2, 3, 4,
      0xff, 0xc5, 0x20, 0xc4, 0x10, 0xff, 0xc5, 0x20, 0xc4, 0x10] }).step
    let move : Instruction := .move (.sized .quadWord (.literal 0x20))
      (.sized .doubleWord (.literal 0x10))
    machine.status = .running ∧ machine.tape.decode.1 = .ok move ∧
      machine.step.status = .running ∧ machine.step.tape.decode.1 = .ok move ∧
      machine.step.memory.byteAt 0x27 ≠ machine.memory.byteAt 0x27 ∧
      machine.step.step.memory = machine.step.memory ∧
      machine.step.step.stack = machine.step.stack ∧
      machine.step.advance.result = .ok true := by
  intro machine move
  have decoded : machine.tape.decode.1 = .ok move := by rfl
  have completed : machine.advance.result = .ok true :=
    answer_toOption_eq_some.mp (by decide +kernel)
  have resumed : machine.step.status = .running := by decide +kernel
  have repeated : machine.step.tape.decode.1 = .ok move :=
    answer_toOption_eq_some.mp (by decide +kernel)
  have changed : machine.step.memory.byteAt 0x27 ≠ machine.memory.byteAt 0x27 := by
    decide +kernel
  obtain ⟨memory, stack, both⟩ := move_again (.sized .quadWord 0x20) (.sized .doubleWord 0x10)
    (by decide) rfl decoded rfl rfl resumed repeated
  exact ⟨rfl, decoded, resumed, repeated, changed, memory, stack, both.mpr completed⟩

/-- A move over some of its own cells finds another number when it is made again. -/
example :
    let machine := (start { bytes := [0xed, 0x10, 1, 2, 3, 4,
      0xff, 0xc4, 0x11, 0xc4, 0x10, 0xff, 0xc4, 0x11, 0xc4, 0x10] }).step
    machine.step.step.memory.byteAt 0x14 ≠ machine.step.memory.byteAt 0x14 := by
  decide +kernel

end Machine

end ByteMachine
