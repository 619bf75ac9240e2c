import ByteMachine.Stack

namespace ByteMachine.Stack

/-! The cells above the live bytes of a stack are clear. -/

variable {stack left : Stack}

namespace Action

theorem push_of_fits {value : Value}
    (fits : stack.pointer + value.width.size ≤ capacity) :
    push value stack =
      .ok () ⟨stack.cells.overwrite stack.pointer value.bytes,
        stack.pointer + value.width.size⟩ := by
  have room : ¬capacity < stack.pointer + value.width.size := Nat.not_lt_of_le fits
  unfold push
  change (ite _ _ _ : Action Unit) stack = _
  rw [if_neg room]
  rfl

/-- The test comes before the first cell is written. -/
theorem push_of_full {value : Value}
    (full : capacity < stack.pointer + value.width.size) :
    push value stack = .error .stackOverflow stack := by
  unfold push
  change (ite _ _ _ : Action Unit) stack = _
  rw [if_pos full]
  rfl

theorem pop_of_pointer_zero (bare : stack.pointer = 0) :
    pop stack = .error .stackUnderflow stack := by
  obtain ⟨cells, pointer⟩ := stack
  subst bare
  rfl

theorem pop_of_pointer_succ {last : Nat} (pointer : stack.pointer = last + 1) :
    pop stack = .ok (stack.cells.byteAt last) ⟨stack.cells.overwrite last [0], last⟩ := by
  obtain ⟨cells, pointer⟩ := stack
  subst pointer
  rfl

theorem push_eq_ok_iff {value : Value} :
    push value stack = .ok () left ↔
      stack.pointer + value.width.size ≤ capacity ∧
        left = ⟨stack.cells.overwrite stack.pointer value.bytes,
          stack.pointer + value.width.size⟩ := by
  by_cases fits : stack.pointer + value.width.size ≤ capacity
  · simp [push_of_fits fits, fits, eq_comm]
  · simp [push_of_full (Nat.lt_of_not_le fits), fits]

theorem push_eq_error_iff {value : Value} {error : AccessError} :
    push value stack = .error error left ↔
      capacity < stack.pointer + value.width.size ∧ error = .stackOverflow ∧ left = stack := by
  by_cases fits : stack.pointer + value.width.size ≤ capacity
  · simp [push_of_fits fits, Nat.not_lt_of_le fits]
  · have full := Nat.lt_of_not_le fits
    simp [push_of_full full, full, eq_comm]

theorem pop_eq_ok_iff {byte : Byte} :
    pop stack = .ok byte left ↔
      ∃ last, stack.pointer = last + 1 ∧ byte = stack.cells.byteAt last ∧
        left = ⟨stack.cells.overwrite last [0], last⟩ := by
  cases pointer : stack.pointer with
  | zero => simp [pop_of_pointer_zero pointer]
  | succ last => simp [pop_of_pointer_succ pointer, eq_comm]

theorem pop_eq_error_iff {error : AccessError} :
    pop stack = .error error left ↔
      stack.pointer = 0 ∧ error = .stackUnderflow ∧ left = stack := by
  cases pointer : stack.pointer with
  | zero => simp [pop_of_pointer_zero pointer, eq_comm]
  | succ last => simp [pop_of_pointer_succ pointer]

end Action

theorem push_eq_ok_iff_action {value : Value} :
    stack.push value = .ok left ↔ Action.push value stack = .ok () left := by
  unfold push
  cases Action.push value stack with
  | ok done left => simp
  | error error left => simp

theorem pop_eq_ok_iff_action {byte : Byte} :
    stack.pop = .ok (byte, left) ↔ Action.pop stack = .ok byte left := by
  unfold pop
  cases Action.pop stack with
  | ok last left => simp
  | error error left => simp

theorem push_eq_ok_iff {value : Value} :
    stack.push value = .ok left ↔
      stack.pointer + value.width.size ≤ capacity ∧
        left = ⟨stack.cells.overwrite stack.pointer value.bytes,
          stack.pointer + value.width.size⟩ :=
  push_eq_ok_iff_action.trans Action.push_eq_ok_iff

theorem pop_eq_ok_iff {byte : Byte} :
    stack.pop = .ok (byte, left) ↔
      ∃ last, stack.pointer = last + 1 ∧ byte = stack.cells.byteAt last ∧
        left = ⟨stack.cells.overwrite last [0], last⟩ :=
  pop_eq_ok_iff_action.trans Action.pop_eq_ok_iff

structure Clear (stack : Stack) : Prop where
  pointer_le : stack.pointer ≤ capacity
  above : ∀ index, stack.pointer ≤ index → stack.cells.byteAt index = 0

theorem clear_empty : empty.Clear where
  pointer_le := Nat.zero_le _
  above := fun index _ => Cells.byteAt_zero index

theorem Clear.push (clear : stack.Clear) {value : Value}
    (pushed : stack.push value = .ok left) : left.Clear := by
  obtain ⟨fits, rfl⟩ := push_eq_ok_iff.mp pushed
  refine ⟨fits, fun index free => ?_⟩
  have length := value.length_bytes
  dsimp only at free ⊢
  rw [Cells.byteAt_overwrite _ _ _ _ (by omega), if_neg (by omega)]
  exact clear.above index (by omega)

theorem Clear.pop (clear : stack.Clear) {byte : Byte}
    (popped : stack.pop = .ok (byte, left)) : left.Clear := by
  obtain ⟨last, pointer, -, rfl⟩ := pop_eq_ok_iff.mp popped
  have fits := clear.pointer_le
  refine ⟨by dsimp only; omega, fun index free => ?_⟩
  dsimp only at free ⊢
  rw [Cells.byteAt_overwrite _ _ _ _ (by simp only [List.length_singleton]; omega)]
  split
  · -- The cell of the byte taken off is cleared with it.
    rename_i here
    simp only [List.length_singleton] at here
    rw [show index - last = 0 by omega]
    rfl
  · rename_i elsewhere
    simp only [List.length_singleton] at elsewhere
    exact clear.above index (by omega)

end ByteMachine.Stack
