import ByteMachine.Proofs.Encoding.Exact
import ByteMachine.Proofs.Encoding.Tape

namespace ByteMachine

/-! What an error of a reader says of the bytes that it has read. -/

namespace Decode

/-- The error is true of the bytes read. An unknown marker is one of these bytes, and it
could only start an instruction. -/
inductive Misread (read : List Byte) : DecodeError → Prop where
  | ended : Misread read .unexpectedEnd
  | tooDeep : Misread read .operandTooDeep
  | unknown {opcode : Opcode} (starts : opcode.isMarker = false)
      (member : opcode.code ∈ read) : Misread read (.unknownMarker opcode)

theorem Misread.append {read : List Byte} {error : DecodeError}
    (misread : Misread read error) (before : List Byte) : Misread (before ++ read) error := by
  cases misread with
  | ended => exact .ended
  | tooDeep => exact .tooDeep
  | unknown starts member => exact .unknown starts (List.mem_append_right before member)

/-- Every error of the reader is true of the bytes that it has read. -/
def Truthful {α : Type} (reader : Decode α) : Prop :=
  ∀ bytes error rest, reader bytes = .error error rest →
    ∃ read, bytes = read ++ rest ∧ Misread read error

namespace Truthful

variable {α β : Type}

theorem pure (result : α) : Truthful (pure result : Decode α) := nofun

theorem bind {reader : Decode α} {after : α → Decode β} (first : Truthful reader)
    (forward : Forward reader) (second : ∀ result, Truthful (after result)) :
    Truthful (reader >>= after) := by
  intro bytes error rest failed
  rcases bind_eq_error failed with begun | ⟨result, left, begun, later⟩
  · exact first bytes error rest begun
  · obtain ⟨read, rfl, misread⟩ := second result left error rest later
    have suffix := forward bytes
    rw [begun] at suffix
    obtain ⟨before, spelled⟩ := suffix
    refine ⟨before ++ read, ?_, misread.append before⟩
    rw [← spelled, List.append_assoc]
    rfl

end Truthful

theorem truthful_next : Truthful next := by
  intro bytes error rest failed
  cases bytes with
  | nil =>
      cases failed
      exact ⟨[], rfl, .ended⟩
  | cons byte tail => cases failed

theorem truthful_value (width : Width) : Truthful (value width) := by
  intro bytes error rest failed
  rcases value_cases width bytes with ⟨_, _, -, -, read⟩ | ⟨-, ended⟩
  · rw [read] at failed
    cases failed
  · rw [ended] at failed
    cases failed
    exact ⟨[], rfl, .ended⟩

theorem truthful_operand (levels : Nat) : Truthful (operand levels) := by
  induction levels with
  | zero =>
      intro bytes error rest failed
      cases failed
      exact ⟨[], rfl, .tooDeep⟩
  | succ levels induction =>
      intro bytes error rest failed
      rcases operand_eq_error failed with
        ⟨rfl, rfl⟩ | ⟨marker, starts, rfl, rfl⟩ | ⟨width, tail, rfl, below⟩ |
          ⟨width, tail, rfl, below⟩ | ⟨tail, rfl, -, below⟩
      · cases failed
        exact ⟨[], rfl, .ended⟩
      · exact ⟨[marker.code], rfl, .unknown starts (List.mem_singleton_self _)⟩
      · obtain ⟨read, rfl, misread⟩ := induction tail error rest below
        exact ⟨[(Opcode.size width).code] ++ read, rfl, misread.append _⟩
      · obtain ⟨read, rfl, misread⟩ := induction tail error rest below
        exact ⟨[Opcode.ref.code, (Opcode.size width).code] ++ read, rfl, misread.append _⟩
      · obtain ⟨read, rfl, misread⟩ := induction tail error rest below
        exact ⟨[Opcode.ref.code] ++ read, rfl, misread.append _⟩

theorem truthful_address : Truthful address :=
  truthful_operand _

theorem truthful_byteOperand : Truthful byteOperand := by
  intro bytes error rest failed
  rcases byteOperand_eq_error failed with ⟨rfl, rfl⟩ | ⟨byte, tail, rfl, ended, -⟩
  · cases failed
    exact ⟨[], rfl, .ended⟩
  · exact truthful_address _ error rest ended

theorem truthful_pushed : Truthful pushed :=
  truthful_next.bind forward_next fun _ => .pure _

theorem truthful_body {opcode : Opcode} (starts : opcode.isMarker = false) :
    Truthful (body opcode) := by
  have address {after : Operand → Decode Instruction}
      (later : ∀ operand, Truthful (after operand)) : Truthful (address >>= after) :=
    truthful_address.bind forward_address later
  have byteOperand {after : Operand → Decode Instruction}
      (later : ∀ operand, Truthful (after operand)) : Truthful (byteOperand >>= after) :=
    truthful_byteOperand.bind forward_byteOperand later
  cases opcode with
  | move => exact address fun _ => address fun _ => .pure _
  | load width =>
      exact address fun _ => (truthful_value width).bind (forward_value width) fun _ => .pure _
  | jump => exact address fun _ => .pure _
  | push => exact truthful_pushed.bind forward_pushed fun _ => .pure _
  | pop => exact .pure _
  | arithmetic op => exact byteOperand fun _ => byteOperand fun _ => .pure _
  | compare condition => exact byteOperand fun _ => byteOperand fun _ => .pure _
  | branch condition =>
      exact byteOperand fun _ => byteOperand fun _ => address fun _ => .pure _
  | bitwise op => exact address fun _ => byteOperand fun _ => .pure _
  | invert => exact address fun _ => .pure _
  | top => cases starts
  | ref => cases starts
  | insPtr => cases starts
  | size width => cases starts

/-- An error is about the first byte, which starts no instruction, or true of the bytes
read behind it. -/
theorem instruction_misread {byte : Byte} {tail rest : List Byte} {error : DecodeError}
    (failed : instruction (byte :: tail) = .error error rest) :
    (error = .invalidOpcode byte ∧ Opcode.ofByte? byte = none) ∨
    (∃ marker : Opcode, error = .misplacedMarker marker ∧ marker.isMarker = true ∧
      byte = marker.code) ∨
    ∃ read, tail = read ++ rest ∧ Misread read error := by
  cases symbol : Symbol.ofByte byte with
  | literal found =>
      obtain ⟨rfl, unknown⟩ := Symbol.ofByte_eq_literal symbol
      rw [instruction, next_bind, symbol] at failed
      cases failed
      exact .inl ⟨rfl, unknown⟩
  | marker opcode =>
      obtain rfl := Symbol.ofByte_eq_marker symbol
      rw [instruction_code] at failed
      cases starts : opcode.isMarker with
      | false => exact .inr (.inr (truthful_body starts tail error rest failed))
      | true =>
          refine .inr (.inl ⟨opcode, ?_, starts, rfl⟩)
          cases opcode <;> first | (cases failed; rfl) | cases starts

end Decode

namespace Tape

variable {tape moved : Tape}

theorem decode_eq_error {error : DecodeError} (failed : tape.decode = (.error error, moved)) :
    ∃ left, Decode.instruction tape.rest = .error error left ∧
      moved.cursor = tape.cursor + (tape.rest.length - left.length) := by
  unfold decode read at failed
  cases result : Decode.instruction tape.rest with
  | ok written left =>
      rw [result] at failed
      cases failed
  | error other left =>
      rw [result] at failed
      cases failed
      exact ⟨left, rfl, rfl⟩

/-- The bytes between the first one of an instruction and the place where reading stopped. -/
theorem extract_of_rest {byte : Byte} {read left : List Byte}
    (shape : tape.rest = byte :: (read ++ left)) :
    tape.bytes.extract (tape.cursor + 1) (tape.cursor + 1 + read.length) = read := by
  have behind : tape.bytes.drop (tape.cursor + 1) = read ++ left := by
    rw [← List.drop_drop]
    exact congrArg (List.drop 1) shape
  rw [List.extract_eq_take_drop, behind, Nat.add_sub_cancel_left, List.take_left]

theorem getElem?_of_rest {byte : Byte} {tail : List Byte} (shape : tape.rest = byte :: tail) :
    tape.bytes[tape.cursor]? = some byte := by
  have first := congrArg List.head? shape
  rwa [rest, List.head?_drop] at first

theorem exists_rest (more : tape.hasNext = true) : ∃ byte tail, tape.rest = byte :: tail := by
  apply List.exists_cons_of_ne_nil
  intro ended
  rw [hasNext_eq_false_iff.mpr ended] at more
  cases more

end Tape

end ByteMachine
