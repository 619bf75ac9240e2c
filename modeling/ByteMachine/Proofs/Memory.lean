import ByteMachine.Memory

namespace ByteMachine.Memory

/-! What wide accesses read and change. They fail just where they run past the end of
memory. -/

variable {memory written : Memory} {address : Byte} {error : AccessError}

theorem read_of_le (memory : Memory) {width : Width} (within : address.toNat + width.size ≤ size) :
    ∃ value : Value, memory.read address width = .ok value ∧ value.width = width ∧
      value.bytes = memory.cells.slice address.toNat width.size := by
  obtain ⟨value, wide, bytes⟩ := Value.exists_bytes_eq (memory.cells.length_slice within)
  refine ⟨value, ?_, wide, bytes⟩
  rw [read, if_pos within, ← bytes, Value.ofBytes?_bytes]

theorem read_of_lt {width : Width} (beyond : size < address.toNat + width.size) :
    memory.read address width = .error (.outOfRange address width) :=
  if_neg (Nat.not_le_of_lt beyond)

theorem read_eq_error_iff {width : Width} :
    memory.read address width = .error error ↔
      size < address.toNat + width.size ∧ error = .outOfRange address width := by
  by_cases within : address.toNat + width.size ≤ size
  · obtain ⟨value, loaded, -⟩ := read_of_le memory within
    simp [loaded, Nat.not_lt_of_le within]
  · have beyond := Nat.lt_of_not_le within
    simp [read_of_lt beyond, beyond, eq_comm]

theorem read_eq_ok_iff {width : Width} {value : Value} :
    memory.read address width = .ok value ↔
      address.toNat + width.size ≤ size ∧ value.width = width ∧
        value.bytes = memory.cells.slice address.toNat width.size := by
  by_cases within : address.toNat + width.size ≤ size
  · obtain ⟨found, loaded, wide, bytes⟩ := read_of_le memory within
    rw [loaded]
    constructor
    · rintro ⟨⟩
      exact ⟨within, wide, bytes⟩
    · rintro ⟨-, -, same⟩
      exact congrArg Except.ok (Value.ext_bytes (bytes.trans same.symm))
  · simp [read_of_lt (Nat.lt_of_not_le within), within]

namespace Action

theorem write_of_le {value : Value} (within : address.toNat + value.width.size ≤ size) :
    write address value memory =
      .ok () ⟨memory.cells.overwrite address.toNat value.bytes⟩ := by
  unfold write
  rw [if_neg (Nat.not_lt_of_le within)]
  rfl

/-- The test comes before the first cell is written. -/
theorem write_of_lt {value : Value} (beyond : size < address.toNat + value.width.size) :
    write address value memory = .error (.outOfRange address value.width) memory := by
  unfold write
  rw [if_pos beyond]
  rfl

theorem write_eq_error_iff {value : Value} :
    write address value memory = .error error written ↔
      size < address.toNat + value.width.size ∧
        error = .outOfRange address value.width ∧ written = memory := by
  by_cases within : address.toNat + value.width.size ≤ size
  · simp [write_of_le within, Nat.not_lt_of_le within]
  · have beyond := Nat.lt_of_not_le within
    simp [write_of_lt beyond, beyond, eq_comm]

end Action

theorem write_eq_ok_iff_action {value : Value} :
    memory.write address value = .ok written ↔
      Action.write address value memory = .ok () written := by
  unfold write
  cases Action.write address value memory with
  | ok done left => simp
  | error error left => simp

theorem toList_inj (same : memory.toList = written.toList) : memory = written := by
  obtain ⟨cells⟩ := memory
  obtain ⟨others⟩ := written
  exact congrArg Memory.mk (Vector.toList_inj.mp same)

/-- The cells in front of the value and those behind it are as they were. -/
theorem write_eq_ok_iff {value : Value} :
    memory.write address value = .ok written ↔
      address.toNat + value.width.size ≤ size ∧
        written.toList = memory.toList.take address.toNat ++ value.bytes ++
          memory.toList.drop (address.toNat + value.width.size) := by
  unfold write
  by_cases within : address.toNat + value.width.size ≤ size
  · have cells := memory.cells.toList_overwrite address.toNat value.bytes
      (by rw [value.length_bytes]; exact within)
    rw [value.length_bytes] at cells
    rw [Action.write_of_le within]
    constructor
    · rintro ⟨⟩
      exact ⟨within, cells⟩
    · rintro ⟨-, same⟩
      exact congrArg Except.ok (toList_inj (cells.trans same.symm))
  · simp [Action.write_of_lt (Nat.lt_of_not_le within), within]

theorem write_of_le {value : Value} (within : address.toNat + value.width.size ≤ size) :
    ∃ written, memory.write address value = .ok written := by
  unfold write
  rw [Action.write_of_le within]
  exact ⟨_, rfl⟩

/-- The low byte of a value is in the last of its cells. -/
theorem getElem?_of_read {width : Width} {value : Value}
    (loaded : memory.read address width = .ok value) :
    memory.toList[address.toNat + width.size - 1]? = some value.lowByte := by
  obtain ⟨within, rfl, bytes⟩ := read_eq_ok_iff.mp loaded
  have positive := value.width.size_pos
  have last : value.cells.byteAt (value.width.size - 1) =
      memory.cells.byteAt (address.toNat + (value.width.size - 1)) := by
    rw [value.byteAt_cells (by omega), bytes, Cells.getD_slice _ (by omega)]
  have inside : address.toNat + (value.width.size - 1) < memory.cells.toList.length := by
    rw [Vector.length_toList]
    omega
  rw [Packed.lowByte, last, toList, Nat.add_sub_assoc positive,
    List.getElem?_eq_getElem inside, Cells.getElem_toList]

end ByteMachine.Memory
