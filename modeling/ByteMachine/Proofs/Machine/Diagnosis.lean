import ByteMachine.Proofs.Encoding.Misread
import ByteMachine.Proofs.Machine.Invariant
import ByteMachine.Proofs.Machine.Outcome
import ByteMachine.Proofs.Memory

namespace ByteMachine

/-! Faults tell the truth: what the cause of a fault says holds of the instruction at which
the machine halts, and of the machine before it. -/

namespace Instruction

/-- The instructions that push a byte. -/
def pushes : Instruction → Bool
  | push _ => true
  | arithmetic _ _ _ => true
  | compare _ _ _ => true
  | _ => false

theorem mem_tail_encode {written : Instruction} {operand : Operand} {byte : Byte}
    (member : operand ∈ written.operands) (inside : byte ∈ operand.encode) :
    byte ∈ written.encode.tail :=
  List.mem_append_left _ (List.mem_flatMap.mpr ⟨operand, member, inside⟩)

end Instruction

namespace Machine

/-- Why an operand does not resolve: it holds a marker without a meaning there, the
instruction pointer is too large for a byte, or a wide cell runs past the end of memory. -/
inductive Unresolved (machine : Machine) (operand : Operand) : Fault.Cause → Prop where
  | marker {marker : Opcode} (isMarker : marker.isMarker = true) (other : marker ≠ .top)
      (member : marker.code ∈ operand.encode) :
      Unresolved machine operand (.unknownMarker marker)
  | insPtr (large : 255 < machine.tape.cursor) :
      Unresolved machine operand (.insPtrOverflow machine.tape.cursor)
  | memory {address : Byte} {width : Width}
      (beyond : Memory.size < address.toNat + width.size) :
      Unresolved machine operand (.memoryOutOfRange address width)

section Resolve

variable {machine : Machine} {operand : Operand} {cause : Fault.Cause}

theorem Unresolved.outer {outer : Operand} (unresolved : machine.Unresolved operand cause)
    (within : operand.encode <:+ outer.encode) : machine.Unresolved outer cause := by
  cases unresolved with
  | marker isMarker other member => exact .marker isMarker other (within.mem member)
  | insPtr large => exact .insPtr large
  | memory beyond => exact .memory beyond

theorem insPtr_eq_error (failed : machine.insPtr = .error cause) :
    machine.Unresolved operand cause := by
  unfold Machine.insPtr at failed
  split at failed
  · cases failed
  · rename_i large
    cases failed
    exact .insPtr (by omega)

theorem load_eq_error {address : Byte} {width : Width}
    (failed : machine.load address width = .error cause) :
    Memory.size < address.toNat + width.size ∧
      cause = .memoryOutOfRange address width := by
  obtain ⟨error, denied, rfl⟩ := answer_mapError_eq_error failed
  obtain ⟨beyond, rfl⟩ := Memory.read_eq_error_iff.mp denied
  exact ⟨beyond, rfl⟩

theorem encode_suffix_ref (width : Option Width) (inner : Operand) :
    inner.encode <:+ (Operand.ref width inner).encode := by
  cases width with
  | none => exact List.suffix_cons _ _
  | some width => exact (List.suffix_cons _ _).trans (List.suffix_cons _ _)

theorem encode_suffix_sized (width : Width) (inner : Operand) :
    inner.encode <:+ (Operand.sized width inner).encode :=
  List.suffix_cons _ _

theorem unresolved_size {width : Width} (member : (Opcode.size width).code ∈ operand.encode) :
    machine.Unresolved operand (.unknownMarker (.size width)) :=
  .marker rfl nofun member

theorem address_eq_error (failed : machine.address operand = .error cause) :
    machine.Unresolved operand cause := by
  induction operand with
  | literal byte => cases failed
  | top => cases failed
  | insPtr => exact insPtr_eq_error failed
  | ref width inner induction =>
      have below (failed : machine.address inner = .error cause) :
          machine.Unresolved (.ref width inner) cause :=
        (induction failed).outer (encode_suffix_ref width inner)
      cases width with
      | none => exact below (answer_map_eq_error failed)
      | some width =>
          cases width with
          | byte => exact below (answer_map_eq_error failed)
          | _ =>
              cases failed
              exact unresolved_size (by simp [Operand.encode])
  | sized width inner induction =>
      cases failed
      exact unresolved_size (by simp [Operand.encode])

theorem value_eq_error (failed : machine.value operand = .error cause) :
    machine.Unresolved operand cause := by
  cases operand with
  | literal byte => cases failed
  | top => cases failed
  | insPtr => exact insPtr_eq_error (answer_map_eq_error failed)
  | ref width inner =>
      rcases answer_bind_eq_error failed with below | ⟨address, -, failed⟩
      · exact (address_eq_error below).outer (encode_suffix_ref width inner)
      · obtain ⟨beyond, rfl⟩ := load_eq_error failed
        exact .memory beyond
  | sized width inner =>
      rcases answer_bind_eq_error failed with below | ⟨address, -, failed⟩
      · exact (address_eq_error below).outer (encode_suffix_sized width inner)
      · obtain ⟨beyond, rfl⟩ := load_eq_error failed
        exact .memory beyond

theorem byte_eq_error (failed : machine.byte operand = .error cause) :
    machine.Unresolved operand cause :=
  value_eq_error (answer_map_eq_error failed)

theorem destination_eq_error (failed : machine.destination operand = .error cause) :
    machine.Unresolved operand cause := by
  cases operand with
  | literal byte => cases failed
  | top => cases failed
  | insPtr =>
      cases failed
      exact .marker rfl nofun (List.mem_singleton_self _)
  | ref width inner =>
      exact (address_eq_error (answer_map_eq_error failed)).outer (encode_suffix_ref width inner)
  | sized width inner =>
      exact (address_eq_error (answer_map_eq_error failed)).outer (encode_suffix_sized width inner)

/-- A destination has a width only if its operand names one. -/
theorem size_mem_of_destination {cell : Destination} {width : Width}
    (resolved : machine.destination operand = .ok cell) (sized : cell.width? = some width) :
    (Opcode.size width).code ∈ operand.encode := by
  cases operand with
  | literal byte => cases resolved; cases sized
  | top => cases resolved; cases sized
  | insPtr => cases resolved
  | ref named inner =>
      obtain ⟨pointer, -, rfl⟩ := answer_map_eq_ok.mp resolved
      cases sized
      simp [Operand.encode]
  | sized named inner =>
      obtain ⟨address, -, rfl⟩ := answer_map_eq_ok.mp resolved
      cases sized
      simp [Operand.encode]

theorem moveSource_eq_error (failed : machine.moveSource operand = .error cause) :
    machine.Unresolved operand cause := by
  cases operand with
  | literal byte => cases failed
  | _ => exact value_eq_error failed

theorem jumpTarget_eq_error (failed : machine.jumpTarget operand = .error cause) :
    machine.Unresolved operand cause := by
  cases operand with
  | literal byte => cases failed
  | top => cases failed
  | insPtr =>
      cases failed
      exact .marker rfl nofun (List.mem_singleton_self _)
  | ref width inner =>
      cases failed
      exact .marker rfl nofun (by cases width <;> simp [Operand.encode])
  | sized width inner =>
      cases failed
      exact unresolved_size (by simp [Operand.encode])

theorem jumpTarget_lt {target : Nat} (resolved : machine.jumpTarget operand = .ok target) :
    target < 256 := by
  cases operand with
  | literal byte => cases resolved; exact byte.toNat_lt
  | top => cases resolved; exact machine.stack.top.toNat_lt
  | _ => cases resolved

end Resolve

section Action

variable {α β : Type} {machine left : Machine} {cause : Fault.Cause}

theorem ask_bind_eq_error {question : Machine → Except Fault.Cause α}
    {after : α → Action β} (failed : (ask question >>= after) machine = .error cause left) :
    question machine = .error cause ∨
      ∃ answer, question machine = .ok answer ∧ after answer machine = .error cause left := by
  change EStateM.bind (ask question) after machine = _ at failed
  unfold EStateM.bind ask at failed
  cases asked : question machine with
  | error other =>
      rw [asked] at failed
      cases failed
      exact .inl rfl
  | ok answer =>
      rw [asked] at failed
      exact .inr ⟨answer, rfl, failed⟩

end Action

/-- Why an instruction fails on a machine: one of its operands does not resolve, or what it
does with them is not possible. -/
inductive Fails (machine : Machine) (instruction : Instruction) : Fault.Cause → Prop where
  | operand {operand : Operand} {cause : Fault.Cause}
      (member : operand ∈ instruction.operands)
      (unresolved : machine.Unresolved operand cause) : Fails machine instruction cause
  | memory {address : Byte} {width : Width}
      (beyond : Memory.size < address.toNat + width.size) :
      Fails machine instruction (.memoryOutOfRange address width)
  | overflow (pushes : instruction.pushes = true)
      (full : Stack.capacity ≤ machine.stack.pointer) : Fails machine instruction .stackOverflow
  | underflow (pops : instruction = .pop) (empty : machine.stack.pointer = 0) :
      Fails machine instruction .stackUnderflow
  | division {left right : Operand} (divides : instruction = .arithmetic .div left right)
      (zero : machine.byte right = .ok 0) : Fails machine instruction .divisionByZero
  | jump {target : Nat} (beyond : machine.tape.bytes.length < target)
      (small : target < 256) : Fails machine instruction (.jumpOutOfRange target)

section Execute

variable {machine left : Machine} {instruction : Instruction} {cause : Fault.Cause}

theorem fails_store {address : Byte} {value : Value}
    (failed : store address value machine = .error cause left) :
    machine.Fails instruction cause := by
  obtain ⟨beyond, rfl, -⟩ := store_eq_error.mp failed
  exact .memory beyond

theorem fails_load {address : Byte} {width : Width}
    (failed : machine.load address width = .error cause) :
    machine.Fails instruction cause := by
  obtain ⟨beyond, rfl⟩ := load_eq_error failed
  exact .memory beyond

theorem fails_push {byte : Byte} (pushes : instruction.pushes = true)
    (failed : push byte machine = .error cause left) : machine.Fails instruction cause := by
  obtain ⟨full, rfl, -⟩ := push_eq_error.mp failed
  exact .overflow pushes full

theorem fails_jump {operand : Operand} {target : Nat}
    (resolved : machine.jumpTarget operand = .ok target)
    (failed : jump target machine = .error cause left) : machine.Fails instruction cause := by
  obtain ⟨beyond, rfl, -⟩ := jump_eq_error.mp failed
  exact .jump beyond (jumpTarget_lt resolved)

/-- A value of another width than its destination is blamed on the size in front of the
destination. -/
theorem fails_load_width {destination : Operand} {value : Value} {cell : Destination}
    {width : Width} (resolved : machine.destination destination = .ok cell)
    (sized : cell.width? = some width) :
    machine.Fails (.load destination value) (.unknownMarker (.size width)) :=
  .operand (List.mem_singleton_self destination)
    (unresolved_size (size_mem_of_destination resolved sized))

theorem execute_eq_error (failed : execute instruction machine = .error cause left) :
    machine.Fails instruction cause := by
  cases instruction with
  | move destination source =>
      rcases ask_bind_eq_error failed with unresolved | ⟨cell, -, failed⟩
      · exact .operand (by simp [Instruction.operands]) (destination_eq_error unresolved)
      rcases ask_bind_eq_error failed with unresolved | ⟨value, -, failed⟩
      · exact .operand (by simp [Instruction.operands]) (moveSource_eq_error unresolved)
      exact fails_store failed
  | load destination value =>
      rcases ask_bind_eq_error failed with unresolved | ⟨cell, resolved, failed⟩
      · exact .operand (by simp [Instruction.operands]) (destination_eq_error unresolved)
      cases sized : cell.width? with
      | none =>
          simp only [sized] at failed
          exact fails_store failed
      | some width =>
          simp only [sized] at failed
          split at failed
          · exact fails_store failed
          · cases failed
            exact fails_load_width resolved sized
  | jump target =>
      rcases ask_bind_eq_error failed with unresolved | ⟨offset, resolved, failed⟩
      · exact .operand (by simp [Instruction.operands]) (jumpTarget_eq_error unresolved)
      exact fails_jump resolved failed
  | push source =>
      rcases ask_bind_eq_error failed with unresolved | ⟨byte, -, failed⟩
      · exact .operand (by simp [Instruction.operands]) (byte_eq_error unresolved)
      exact fails_push rfl failed
  | pop =>
      obtain ⟨empty, rfl, -⟩ := pop_eq_error.mp (discard_eq_error.mp failed)
      exact .underflow rfl empty
  | arithmetic op left right =>
      rcases ask_bind_eq_error failed with unresolved | ⟨first, -, failed⟩
      · exact .operand (by simp [Instruction.operands]) (byte_eq_error unresolved)
      rcases ask_bind_eq_error failed with unresolved | ⟨second, rightNamed, failed⟩
      · exact .operand (by simp [Instruction.operands]) (byte_eq_error unresolved)
      cases computed : op.result? first second with
      | some result =>
          simp only [computed] at failed
          exact fails_push rfl failed
      | none =>
          simp only [computed] at failed
          cases failed
          obtain ⟨rfl, rfl⟩ := Arithmetic.result?_eq_none_iff.mp computed
          exact .division rfl rightNamed
  | compare condition left right =>
      rcases ask_bind_eq_error failed with unresolved | ⟨first, -, failed⟩
      · exact .operand (by simp [Instruction.operands]) (byte_eq_error unresolved)
      rcases ask_bind_eq_error failed with unresolved | ⟨second, -, failed⟩
      · exact .operand (by simp [Instruction.operands]) (byte_eq_error unresolved)
      exact fails_push rfl failed
  | branch condition left right target =>
      rcases ask_bind_eq_error failed with unresolved | ⟨first, -, failed⟩
      · exact .operand (by simp [Instruction.operands]) (byte_eq_error unresolved)
      rcases ask_bind_eq_error failed with unresolved | ⟨second, -, failed⟩
      · exact .operand (by simp [Instruction.operands]) (byte_eq_error unresolved)
      rcases ask_bind_eq_error failed with unresolved | ⟨offset, resolved, failed⟩
      · exact .operand (by simp [Instruction.operands]) (jumpTarget_eq_error unresolved)
      split at failed
      · exact fails_jump resolved failed
      · cases failed
  | bitwise op destination source =>
      rcases ask_bind_eq_error failed with unresolved | ⟨cell, -, failed⟩
      · exact .operand (by simp [Instruction.operands]) (destination_eq_error unresolved)
      rcases ask_bind_eq_error failed with unresolved | ⟨byte, -, failed⟩
      · exact .operand (by simp [Instruction.operands]) (byte_eq_error unresolved)
      rcases ask_bind_eq_error failed with denied | ⟨value, -, failed⟩
      · exact fails_load denied
      exact fails_store failed
  | invert destination =>
      rcases ask_bind_eq_error failed with unresolved | ⟨cell, -, failed⟩
      · exact .operand (by simp [Instruction.operands]) (destination_eq_error unresolved)
      rcases ask_bind_eq_error failed with denied | ⟨value, -, failed⟩
      · exact fails_load denied
      exact fails_store failed

end Execute

/-- The machine behind its next instruction, with the cursor where decoding stopped. -/
def fetched (machine : Machine) : Machine :=
  { machine with tape := machine.tape.decode.2, offset := machine.tape.cursor }

/-- What the cause of a fault says of the machine that halts at its next step. -/
def Explains (machine : Machine) : Fault.Cause → Prop
  | .invalidOpcode byte =>
      machine.tape.bytes[machine.tape.cursor]? = some byte ∧
        byte ∉ Opcode.all.map Opcode.code
  | .misplacedMarker marker =>
      machine.tape.bytes[machine.tape.cursor]? = some marker.code ∧ marker.isMarker = true
  | .unknownMarker opcode =>
      opcode.code ∈
        machine.tape.bytes.extract (machine.tape.cursor + 1) machine.step.tape.cursor ∧
      ((opcode.isMarker = true ∧ opcode ≠ .top) ↔
        ∃ instruction, machine.tape.decode.1 = .ok instruction)
  | .operandTooDeep => machine.tape.decode.1 = .error .operandTooDeep
  | .streamUnderrun => machine.tape.decode.1 = .error .unexpectedEnd
  | .memoryOutOfRange address width => 256 < address.toNat + width.size
  | .stackOverflow =>
      machine.stack.pointer = 1024 ∧
        ∃ instruction, machine.tape.decode.1 = .ok instruction ∧ instruction.pushes = true
  | .stackUnderflow => machine.stack.pointer = 0 ∧ machine.tape.decode.1 = .ok .pop
  | .divisionByZero =>
      ∃ left right, machine.tape.decode.1 = .ok (.arithmetic .div left right) ∧
        machine.fetched.byte right = .ok 0
  | .jumpOutOfRange target => machine.tape.bytes.length < target ∧ target ≤ 255
  | .insPtrOverflow cursor => cursor = machine.step.tape.cursor ∧ 255 < cursor

section Explain

variable {machine : Machine} {moved : Tape}

theorem explains_of_misread {error : DecodeError} (more : machine.tape.hasNext = true)
    (decoded : machine.tape.decode = (.error error, moved))
    (stopped : machine.step.tape.cursor = moved.cursor) :
    machine.Explains (.ofDecodeError error) := by
  have undecoded : machine.tape.decode.1 = .error error := congrArg Prod.fst decoded
  obtain ⟨byte, tail, shape⟩ := Tape.exists_rest more
  obtain ⟨left, failed, cursor⟩ := Tape.decode_eq_error decoded
  rw [shape] at failed
  rcases Decode.instruction_misread failed with
    ⟨rfl, unknown⟩ | ⟨marker, rfl, isMarker, rfl⟩ | ⟨read, rfl, misread⟩
  · exact ⟨Tape.getElem?_of_rest shape, Opcode.not_mem_codes_iff.mpr unknown⟩
  · exact ⟨Tape.getElem?_of_rest shape, isMarker⟩
  · cases misread with
    | ended => exact undecoded
    | tooDeep => exact undecoded
    | unknown starts member =>
        refine ⟨?_, ?_⟩
        · have behind : moved.cursor = machine.tape.cursor + 1 + read.length := by
            rw [cursor, shape]
            simp only [List.length_cons, List.length_append]
            omega
          rw [stopped, behind, Tape.extract_of_rest shape]
          exact member
        · constructor
          · rintro ⟨isMarker, -⟩
            rw [starts] at isMarker
            cases isMarker
          · rintro ⟨instruction, found⟩
            rw [undecoded] at found
            cases found

/-- The bytes of an operand lie between the opcode and the next instruction. -/
theorem mem_extract_of_decode {instruction : Instruction} {operand : Operand} {byte : Byte}
    (decoded : machine.tape.decode = (.ok instruction, moved))
    (member : operand ∈ instruction.operands) (inside : byte ∈ operand.encode) :
    byte ∈ machine.tape.bytes.extract (machine.tape.cursor + 1) moved.cursor := by
  have shape : machine.tape.rest =
      instruction.opcode.code :: (instruction.encode.tail ++ moved.rest) :=
    Tape.rest_eq_append decoded
  have behind : moved.cursor = machine.tape.cursor + 1 + instruction.encode.tail.length := by
    obtain ⟨-, -, rfl⟩ := Tape.decode_eq_ok_iff.mp decoded
    simp only [Instruction.encode, List.length_cons, List.tail_cons]
    omega
  rw [behind, Tape.extract_of_rest shape]
  exact Instruction.mem_tail_encode member inside

theorem explains_of_fails {instruction : Instruction} {cause : Fault.Cause}
    (decoded : machine.tape.decode = (.ok instruction, moved))
    (fails : machine.fetched.Fails instruction cause)
    (bounded : machine.stack.pointer ≤ Stack.capacity)
    (stopped : machine.step.tape.cursor = moved.cursor) : machine.Explains cause := by
  have found : machine.tape.decode.1 = .ok instruction := congrArg Prod.fst decoded
  have behind : machine.fetched.tape = moved := congrArg Prod.snd decoded
  cases fails with
  | operand member unresolved =>
      cases unresolved with
      | marker isMarker other inside =>
          refine ⟨?_, fun _ => ⟨instruction, found⟩, fun _ => ⟨isMarker, other⟩⟩
          rw [stopped]
          exact mem_extract_of_decode decoded member inside
      | insPtr large => exact ⟨by rw [behind, stopped], large⟩
      | memory beyond => exact beyond
  | memory beyond => exact beyond
  | overflow pushes full => exact ⟨Nat.le_antisymm bounded full, instruction, found, pushes⟩
  | underflow pops empty => exact ⟨empty, by rw [found, pops]⟩
  | division divides zero => exact ⟨_, _, by rw [found, divides], zero⟩
  | jump beyond small =>
      have same : machine.fetched.tape.bytes = machine.tape.bytes :=
        Tape.bytes_read machine.tape Decode.instruction
      exact ⟨same ▸ beyond, Nat.le_of_lt_succ small⟩

/-- A fault is at the cursor of the machine before the step, and its cause is true of that
machine and its next instruction. -/
theorem fault_explained {tape : Tape} {fault : Fault} (reached : Reached tape machine)
    (running : machine.status = .running) (failed : machine.advance.result = .error fault) :
    fault.offset = machine.tape.cursor ∧ machine.Explains fault.cause := by
  have bounded := reached.pointer_le
  obtain ⟨left, stepped, steps⟩ := exists_steps failed
  cases steps with
  | faulted status => simp [status] at running
  | misreads running more decoded =>
      exact ⟨rfl, explains_of_misread more decoded (by rw [stepped])⟩
  | fails running more decoded executed =>
      refine ⟨rfl, explains_of_fails decoded ?_ bounded (by rw [stepped])⟩
      rw [fetched, decoded]
      exact execute_eq_error executed

/-- The destination of a move is behind a double word, which is no pointer. -/
theorem fault_explained_wide_pointer :
    let tape : Tape := { bytes := [0xfd, 0x07, 0xff, 0xc0, 0xc0, 0xc4, 0x10, 0x00] }
    let machine := (start tape).step
    let fault : Fault := ⟨2, .unknownMarker (.size .doubleWord)⟩
    Reached tape machine ∧ machine.status = .running ∧
      machine.advance.result = .error fault ∧ fault.offset = machine.tape.cursor ∧
      machine.Explains fault.cause := by
  intro tape machine fault
  have reached : Reached tape machine := Reached.start.call (.step _)
  have failed : machine.advance.result = .error fault := rfl
  exact ⟨reached, rfl, failed, fault_explained reached rfl failed⟩

end Explain

end Machine

end ByteMachine
