import ByteMachine.Proofs.Machine.Bitwise
import ByteMachine.Proofs.Machine.Move
import ByteMachine.Proofs.Stack.Refinement

namespace ByteMachine

/-! What a completed step changes. An instruction writes to the cells of its destination, or
moves one byte onto the stack or off it, or changes only the cursor. -/

theorem Width.size_mem (width : Width) : width.size ∈ [1, 2, 4, 8] := by
  cases width <;> decide

/-- The second memory has the bytes in consecutive cells, and in all others what the first
one has. -/
structure Memory.Overwritten (memory left : Memory) (address : Nat) (bytes : List Byte) :
    Prop where
  size : bytes.length ∈ [1, 2, 4, 8]
  within : address + bytes.length ≤ 256
  inside : ∀ index < bytes.length, left.toList[address + index]? = bytes[index]?
  outside : ∀ index, index < address ∨ address + bytes.length ≤ index →
    left.toList[index]? = memory.toList[index]?

theorem Memory.overwritten_of_write {memory left : Memory} {address : Byte} {value : Value}
    (written : memory.write address value = .ok left) :
    memory.Overwritten left address.toNat value.bytes := by
  obtain ⟨within, cells⟩ := write_eq_ok_iff.mp written
  rw [← value.length_bytes] at within cells
  have length : (memory.toList.take address.toNat).length = address.toNat := by
    rw [List.length_take, length_toList]
    omega
  refine ⟨?_, within, ?_, ?_⟩
  · rw [value.length_bytes]
    exact value.width.size_mem
  · intro index inside
    rw [cells, List.append_assoc, List.getElem?_append_right (by omega), length,
      Nat.add_sub_cancel_left, List.getElem?_append_left inside]
  · intro index outside
    rcases outside with before | behind
    · rw [cells, List.append_assoc, List.getElem?_append_left (by omega),
        List.getElem?_take_of_lt before]
    · rw [cells, List.getElem?_append_right (by rw [List.length_append]; omega),
        List.length_append, length, List.getElem?_drop, Nat.add_sub_cancel' behind]

theorem Stack.contents_of_pushByte {stack pushed : Stack} {byte : Byte}
    (done : stack.pushByte byte = .ok pushed) : pushed.contents = stack.contents ++ [byte] :=
  contents_of_push (push_eq_ok_iff_action.mp done)

namespace Machine

variable {machine left : Machine} {instruction : Instruction} {destination : Operand}

/-- What an instruction changes of memory and stack, by its kind. What its operands name is
named on the first machine. -/
def Effect (machine : Machine) (instruction : Instruction) (left : Machine) : Prop :=
  match instruction with
  | .move destination source =>
      left.stack = machine.stack ∧
        ∃ address bytes, machine.Targets destination address ∧
          bytes.length = destination.moveSize source ∧
          machine.memory.Overwritten left.memory address.toNat bytes
  | .load destination value =>
      left.stack = machine.stack ∧
        ∃ address, machine.Targets destination address ∧
          machine.memory.Overwritten left.memory address.toNat value.bytes
  | .bitwise _ destination _ | .invert destination =>
      left.stack = machine.stack ∧
        ∃ address bytes, machine.Targets destination address ∧
          bytes.length = destination.cellWidth.size ∧
          machine.memory.Overwritten left.memory address.toNat bytes
  | .push source =>
      left.memory = machine.memory ∧
        ∃ byte, machine.byte source = .ok byte ∧
          left.stack.contents = machine.stack.contents ++ [byte]
  | .arithmetic op first second =>
      left.memory = machine.memory ∧
        ∃ a b result : Byte, machine.byte first = .ok a ∧ machine.byte second = .ok b ∧
          op.onNumbers? a.toNat b.toNat = some result.toNat ∧
          left.stack.contents = machine.stack.contents ++ [result]
  | .compare condition first second =>
      left.memory = machine.memory ∧
        ∃ a b, machine.byte first = .ok a ∧ machine.byte second = .ok b ∧
          left.stack.contents = machine.stack.contents ++
            [if condition.Relates a.toNat b.toNat then 1 else 0]
  | .pop =>
      left.memory = machine.memory ∧
        ∃ byte, machine.stack.contents = left.stack.contents ++ [byte]
  | .jump _ | .branch _ _ _ _ =>
      left.memory = machine.memory ∧ left.stack = machine.stack

theorem Executes.effect (executes : Executes machine instruction left)
    (within : machine.stack.pointer ≤ Stack.capacity) : machine.Effect instruction left := by
  cases executes with
  | move resolved named written =>
      obtain ⟨targets, sized⟩ := destination_eq_ok_iff.mp resolved
      refine ⟨rfl, _, _, targets, ?_, Memory.overwritten_of_write written⟩
      rw [Value.length_bytes, ← size_resize _ _ (sources_of_moveSource named).2, ← sized]
  | load resolved fits written =>
      obtain ⟨targets, -⟩ := destination_eq_ok_iff.mp resolved
      exact ⟨rfl, _, targets, Memory.overwritten_of_write written⟩
  | jump resolved within => exact ⟨rfl, rfl⟩
  | push named pushed => exact ⟨rfl, _, named, Stack.contents_of_pushByte pushed⟩
  | pop popped =>
      exact ⟨rfl, _, Stack.contents_of_pop within (Stack.pop_eq_ok_iff_action.mp popped)⟩
  | arithmetic leftNamed rightNamed computed pushed =>
      refine ⟨rfl, _, _, _, leftNamed, rightNamed, ?_, Stack.contents_of_pushByte pushed⟩
      rw [← Arithmetic.map_result?, computed, Option.map_some]
  | compare leftNamed rightNamed pushed =>
      refine ⟨rfl, _, _, leftNamed, rightNamed, ?_⟩
      simp only [← Condition.holds_iff]
      exact Stack.contents_of_pushByte pushed
  | branchTaken leftNamed rightNamed resolved holds within => exact ⟨rfl, rfl⟩
  | branchPassed leftNamed rightNamed resolved fails => exact ⟨rfl, rfl⟩
  | bitwise resolved named loaded written =>
      obtain ⟨targets, sized⟩ := destination_eq_ok_iff.mp resolved
      refine ⟨rfl, _, _, targets, ?_, Memory.overwritten_of_write written⟩
      rw [Value.length_bytes, Value.width_ofUInt64, Destination.width, sized, Operand.cellWidth]
  | invert resolved loaded written =>
      obtain ⟨targets, sized⟩ := destination_eq_ok_iff.mp resolved
      refine ⟨rfl, _, _, targets, ?_, Memory.overwritten_of_write written⟩
      rw [Value.length_bytes, Value.width_ofUInt64, Destination.width, sized, Operand.cellWidth]

/-- A value of another width than its destination is marked with is never written. The marker
is blamed, unless the destination is none. -/
theorem load_of_other_width {value : Value} {width : Width}
    (running : machine.status = .running)
    (decoded : machine.tape.decode.1 = .ok (.load destination value))
    (marked : destination.markedWidth? = some width) (other : width ≠ value.width) :
    ∃ cause, machine.advance.result = .error ⟨machine.tape.cursor, cause⟩ ∧
      ∀ address, machine.fetched.Targets destination address →
        cause = .unknownMarker (.size width) := by
  cases resolved : machine.fetched.destination destination with
  | error cause =>
      refine ⟨cause, faulted_of_execute running decoded (ask_bind_of_error resolved), ?_⟩
      intro address targets
      rw [targets.destination_eq] at resolved
      cases resolved
  | ok cell =>
      obtain ⟨-, sized⟩ := destination_eq_ok_iff.mp resolved
      refine ⟨_, faulted_of_execute running decoded ?_, fun _ _ => rfl⟩
      apply (ask_bind_of_ok resolved).trans
      simp only [sized, marked, if_neg other]
      rfl

/-- A step that completes an instruction counts it, and changes of memory and stack what the
kind of the instruction says. An immediate value is only stored at its own width. -/
theorem completed_step_effect {tape : Tape} (reached : Reached tape machine)
    (running : machine.status = .running)
    (decoded : machine.tape.decode.1 = .ok instruction) :
    (machine.advance.result = .ok true →
      machine.step.steps = machine.steps + 1 ∧
        machine.fetched.Effect instruction machine.step) ∧
    ∀ destination value width, instruction = .load destination value →
      destination.markedWidth? = some width → width ≠ value.width →
      ∃ cause, machine.advance.result = .error ⟨machine.tape.cursor, cause⟩ ∧
        ∀ address, machine.fetched.Targets destination address →
          cause = .unknownMarker (.size width) := by
  constructor
  · intro completed
    obtain ⟨left, executes, stepped⟩ := executes_of_completed decoded completed
    have effect := executes.effect reached.pointer_le
    refine ⟨(step_of_completed completed).2, ?_⟩
    rw [stepped]
    cases instruction <;> exact effect
  · rintro destination value width rfl marked other
    exact load_of_other_width running decoded marked other

/-- Both operands of the sum are the byte on top, which the push of the sum covers. A byte is
not stored in a word. -/
theorem completed_step_effect_double :
    let tape : Tape := { bytes := [0xfd, 0x87, 0xa0, 0xb0, 0xb0, 0xef, 0xc3, 0x04, 0x01] }
    let sum := (start tape).step
    let load := sum.step
    (Reached tape sum ∧ sum.status = .running ∧
      sum.tape.decode.1 = .ok (.arithmetic .add .top .top) ∧
      sum.advance.result = .ok true ∧ sum.step.steps = sum.steps + 1 ∧
      sum.fetched.Effect (.arithmetic .add .top .top) sum.step ∧
      sum.step.stack.contents = [0x87, 0x0e]) ∧
    Reached tape load ∧ load.status = .running ∧
      load.tape.decode.1 = .ok (.load (.sized .word (.literal 0x04)) (.ofByte 0x01)) ∧
      load.advance.result = .error ⟨5, .unknownMarker (.size .word)⟩ := by
  intro tape sum load
  have sumReached : Reached tape sum := Reached.start.call (.step _)
  have loadReached : Reached tape load := sumReached.call (.step _)
  have sumDecoded : sum.tape.decode.1 = .ok (.arithmetic .add .top .top) := by rfl
  have loadDecoded : load.tape.decode.1 =
      .ok (.load (.sized .word (.literal 0x04)) (.ofByte 0x01)) := by rfl
  have completed : sum.advance.result = .ok true := by rfl
  obtain ⟨counted, effect⟩ :=
    (completed_step_effect sumReached rfl sumDecoded).1 completed
  obtain ⟨cause, failed, blamed⟩ :=
    (completed_step_effect loadReached rfl loadDecoded).2 _ _ .word rfl rfl (by decide)
  obtain rfl := blamed 0x04 (.sized rfl)
  exact ⟨⟨sumReached, rfl, sumDecoded, completed, counted, effect, by decide +kernel⟩,
    loadReached, rfl, loadDecoded, failed⟩

end Machine

end ByteMachine
