import ByteMachine.Proofs.Assembly.Nesting
import ByteMachine.Proofs.Encoding.Misread
import ByteMachine.Proofs.Tape

namespace ByteMachine

/-! How many bytes the decoder takes, whether it succeeds or fails. Nesting bounds the length of
an operand, and the number of operands that of an instruction. -/

namespace Operand

/-- The most bytes of an operand: two for each reference with its width, and one for the
innermost operand. -/
def longest : Nat := 2 * depthLimit - 1

theorem length_encode_le (operand : Operand) :
    operand.encode.length ≤ 2 * operand.depth + 1 := by
  fun_induction encode operand with
  | case1 byte => exact Nat.le_refl 1
  | case2 => exact Nat.le_refl 1
  | case3 => exact Nat.le_refl 1
  | case4 inner induction =>
      simp only [List.length_cons, depth]
      omega
  | case5 width inner induction =>
      simp only [List.length_cons, depth]
      omega
  | case6 width inner induction =>
      simp only [List.length_cons, depth]
      omega

theorem length_encode_le_longest {operand : Operand} (shallow : operand.depth < depthLimit) :
    operand.encode.length ≤ longest := by
  have length := operand.length_encode_le
  unfold longest
  omega

/-- A byte behind so many references, each with a width of its own. -/
def nested : Nat → Operand
  | 0 => literal 0
  | count + 1 => ref (some .quadWord) (nested count)

@[simp] theorem depth_nested (count : Nat) : (nested count).depth = count := by
  induction count with
  | zero => rfl
  | succ count induction => rw [nested, depth, induction]

@[simp] theorem length_encode_nested (count : Nat) :
    (nested count).encode.length = 2 * count + 1 := by
  induction count with
  | zero => rfl
  | succ count induction =>
      rw [nested, encode, List.length_cons, List.length_cons, induction]
      omega

theorem unambiguous_nested (count : Nat) : (nested count).Unambiguous := by
  induction count with
  | zero => decide
  | succ count induction => exact unambiguous_ref.mpr ⟨nofun, induction⟩

theorem isAddress_nested {count : Nat} (few : count < depthLimit) : (nested count).IsAddress :=
  ⟨unambiguous_nested count, by rwa [depth_nested]⟩

theorem isByteOperand_nested {count : Nat} (few : count < depthLimit) :
    (nested count).IsByteOperand := by
  cases count with
  | zero => decide
  | succ count => exact isAddress_nested few

end Operand

/-- The most bytes that the decoder takes behind an opcode, if no operand nests too deep. -/
def Opcode.extent : Opcode → Nat
  | move | arithmetic _ | compare _ | bitwise _ => 2 * Operand.longest
  | load width => Operand.longest + width.size
  | jump | invert => Operand.longest
  | branch _ => 3 * Operand.longest
  | push => 1
  | pop | top | ref | insPtr | size _ => 0

namespace Opcode

/-- A conditional jump is the only instruction with three operands. -/
theorem extent_of_not_branch {opcode : Opcode} (other : ∀ condition, opcode ≠ branch condition) :
    opcode.extent ≤ 62 := by
  cases opcode with
  | branch condition => exact absurd rfl (other condition)
  | load width => cases width <;> decide
  | _ => exact of_decide_eq_true rfl

theorem extent_le (opcode : Opcode) : opcode.extent ≤ 93 := by
  by_cases three : ∃ condition, opcode = branch condition
  · obtain ⟨condition, rfl⟩ := three
    exact Nat.le_refl 93
  · have two := extent_of_not_branch fun condition same => three ⟨condition, same⟩
    omega

end Opcode

namespace Decode

variable {α β : Type}

/-- The limit of nesting is tested behind the last marker, so the operand that breaks it has
cost one byte more than the longest one that keeps it. -/
def overrun : DecodeError → Nat
  | .operandTooDeep => 1
  | _ => 0

theorem overrun_le (error : DecodeError) : overrun error ≤ 1 := by
  unfold overrun
  split
  · exact Nat.le_refl 1
  · exact Nat.zero_le 1

theorem eq_operandTooDeep_of_overrun {error : DecodeError} (late : 0 < overrun error) :
    error = .operandTooDeep := by
  unfold overrun at late
  split at late
  · rfl
  · cases late

/-- The reader takes at most so many bytes, and one more for an operand that nests too deep. -/
structure TakesAtMost (reader : Decode α) (most : Nat) : Prop where
  read : ∀ {bytes result rest}, reader bytes = .ok result rest →
    bytes.length ≤ rest.length + most
  failed : ∀ {bytes error rest}, reader bytes = .error error rest →
    bytes.length ≤ rest.length + most + overrun error

namespace TakesAtMost

theorem pure (result : α) : TakesAtMost (pure result) 0 where
  read := by
    intro bytes other rest read
    cases read
    exact Nat.le_refl _
  failed := nofun

theorem throw (error : DecodeError) : TakesAtMost (throw error : Decode α) 0 where
  read := nofun
  failed := by
    intro bytes other rest failed
    cases failed
    exact Nat.le_add_right _ _

theorem bind {reader : Decode α} {after : α → Decode β} {first second : Nat}
    (begins : TakesAtMost reader first) (ends : ∀ result, TakesAtMost (after result) second) :
    TakesAtMost (reader >>= after) (first + second) where
  read := by
    intro bytes last rest read
    obtain ⟨result, left, begun, done⟩ := bind_eq_ok.mp read
    have before := begins.read begun
    have behind := (ends result).read done
    omega
  failed := by
    intro bytes error rest failed
    rcases bind_eq_error failed with begun | ⟨result, left, begun, ended⟩
    · have spent := begins.failed begun
      omega
    · have before := begins.read begun
      have behind := (ends result).failed ended
      omega

end TakesAtMost

theorem takes_next : TakesAtMost next 1 where
  read := by
    intro bytes byte rest read
    obtain rfl := next_eq_ok read
    exact Nat.le_refl _
  failed := by
    intro bytes error rest failed
    cases bytes with
    | nil => exact Nat.zero_le _
    | cons byte tail => cases failed

theorem takes_value (width : Width) : TakesAtMost (value width) width.size where
  read := by
    intro bytes found rest read
    obtain ⟨rfl, rfl⟩ := value_eq_ok read
    rw [List.length_append, found.length_bytes, Nat.add_comm]
  failed := by
    intro bytes error rest failed
    rcases value_cases width bytes with ⟨_, _, -, -, read⟩ | ⟨-, ended⟩
    · rw [read] at failed
      cases failed
    · rw [ended] at failed
      cases failed
      omega

/-- Each level costs two bytes at most. Only an operand that nests too deep may cost two at every
level; otherwise the last level costs one at most. -/
theorem length_of_operand_error {levels : Nat} {bytes rest : List Byte} {error : DecodeError}
    (failed : operand levels bytes = .error error rest) :
    bytes.length + 1 ≤ rest.length + 2 * levels + overrun error := by
  induction levels generalizing bytes with
  | zero =>
      cases failed
      exact Nat.le_refl _
  | succ levels induction =>
      rcases operand_eq_error failed with
        ⟨rfl, -⟩ | ⟨marker, -, rfl, -⟩ | ⟨width, tail, rfl, below⟩ | ⟨width, tail, rfl, below⟩ |
          ⟨tail, rfl, -, below⟩
      · rw [List.length_nil]
        omega
      · rw [List.length_cons]
        omega
      · have spent := induction below
        rw [List.length_cons]
        omega
      · have spent := induction below
        rw [List.length_cons, List.length_cons]
        omega
      · have spent := induction below
        rw [List.length_cons]
        omega

theorem takes_address : TakesAtMost address Operand.longest where
  read := by
    intro bytes decoded rest read
    obtain ⟨valid, rfl⟩ := address_eq_ok_iff.mp read
    have length := Operand.length_encode_le_longest valid.shallow
    rw [List.length_append]
    omega
  failed := by
    intro bytes error rest failed
    have spent := length_of_operand_error failed
    unfold Operand.longest
    unfold Operand.depthLimit at spent ⊢
    omega

theorem takes_byteOperand : TakesAtMost byteOperand Operand.longest where
  read := by
    intro bytes decoded rest read
    obtain ⟨valid, rfl⟩ := byteOperand_eq_ok_iff.mp read
    have length := Operand.length_encode_le_longest (Operand.isByteOperand_iff.mp valid).2
    rw [List.length_append]
    omega
  failed := by
    intro bytes error rest failed
    rcases byteOperand_eq_error failed with ⟨rfl, -⟩ | ⟨byte, tail, rfl, ended, -⟩
    · exact Nat.zero_le _
    · exact takes_address.failed ended

theorem takes_pushed : TakesAtMost pushed 1 :=
  takes_next.bind fun _ => .pure _

theorem takes_body (opcode : Opcode) : TakesAtMost (body opcode) opcode.extent := by
  cases opcode with
  | move => exact takes_address.bind fun _ => takes_address.bind fun _ => .pure _
  | load width => exact takes_address.bind fun _ => (takes_value width).bind fun _ => .pure _
  | jump => exact takes_address.bind fun _ => .pure _
  | push => exact takes_pushed.bind fun _ => .pure _
  | pop => exact .pure _
  | arithmetic op =>
      exact takes_byteOperand.bind fun _ => takes_byteOperand.bind fun _ => .pure _
  | compare condition =>
      exact takes_byteOperand.bind fun _ => takes_byteOperand.bind fun _ => .pure _
  | branch condition =>
      exact takes_byteOperand.bind fun _ => takes_byteOperand.bind fun _ =>
        takes_address.bind fun _ => .pure _
  | bitwise op => exact takes_address.bind fun _ => takes_byteOperand.bind fun _ => .pure _
  | invert => exact takes_address.bind fun _ => .pure _
  | top => exact .throw _
  | ref => exact .throw _
  | insPtr => exact .throw _
  | size width => exact .throw _

theorem length_of_instruction_error {byte : Byte} {tail rest : List Byte} {error : DecodeError}
    (failed : instruction (byte :: tail) = .error error rest) :
    tail.length ≤ rest.length + 93 + overrun error := by
  rcases instruction_eq_error failed with ⟨⟨⟩, -⟩ | ⟨_, same, -, -⟩ | ⟨opcode, _, -, same, ended⟩
  · obtain ⟨-, rfl⟩ := List.cons.inj same
    omega
  · obtain ⟨-, rfl⟩ := List.cons.inj same
    have spent := (takes_body opcode).failed ended
    have most := opcode.extent_le
    omega

/-- As many references as there are levels are read in full before they are refused. -/
theorem operand_nested (levels : Nat) (rest : List Byte) :
    operand levels ((Operand.nested levels).encode ++ rest) =
      .error .operandTooDeep (0 :: rest) := by
  induction levels with
  | zero => rfl
  | succ levels induction => exact operand_ref_size_error induction .quadWord

end Decode

namespace Instruction

variable {written : Instruction}

theorem length_encode_le (valid : written.WellFormed) :
    written.encode.length ≤ 1 + written.opcode.extent := by
  have read := Decode.instruction_encode valid []
  rw [List.append_nil, encode, Decode.instruction_code] at read
  have taken := (Decode.takes_body written.opcode).read read
  rw [List.length_nil] at taken
  rw [encode, List.length_cons]
  omega

theorem isBranch_of_length (valid : written.WellFormed) (long : written.encode.length = 94) :
    ∃ condition left right target, written = branch condition left right target := by
  have length := length_encode_le valid
  cases written with
  | branch condition left right target => exact ⟨condition, left, right, target, rfl⟩
  | _ =>
      have short := length.trans (Nat.add_le_add_left (Opcode.extent_of_not_branch ?_) 1)
      · omega
      · intro condition same
        cases same

end Instruction

namespace Tape

open Operand (nested)

variable {tape moved : Tape} {decoded : Instruction} {error : DecodeError}

theorem length_of_decode (read : tape.decode = (.ok decoded, moved)) :
    moved.cursor = tape.cursor + decoded.encode.length ∧ decoded.encode.length ≤ 94 := by
  obtain ⟨valid, -, rfl⟩ := decode_eq_ok_iff.mp read
  have length := Instruction.length_encode_le valid
  have most := decoded.opcode.extent_le
  exact ⟨rfl, by omega⟩

theorem cursor_of_decode_error (more : tape.hasNext = true)
    (failed : tape.decode = (.error error, moved)) :
    tape.cursor + 1 ≤ moved.cursor ∧
      moved.cursor ≤ tape.cursor + 94 + Decode.overrun error := by
  obtain ⟨byte, tail, shape⟩ := exists_rest more
  obtain ⟨left, stopped, advanced⟩ := decode_eq_error failed
  rw [shape, List.length_cons] at advanced
  rw [shape] at stopped
  have behind := (Decode.unread_instruction_cons byte tail).length_le
  rw [stopped, Decode.unread] at behind
  have spent := Decode.length_of_instruction_error stopped
  omega

/-- One call moves the cursor forward, unless it is at the end. -/
theorem cursor_decode (more : tape.hasNext = true) :
    tape.cursor + 1 ≤ tape.decode.2.cursor ∧ tape.decode.2.cursor ≤ tape.cursor + 95 := by
  cases outcome : tape.decode with
  | mk answer moved =>
      dsimp only
      cases answer with
      | ok decoded =>
          obtain ⟨forward, -⟩ := cursor_of_decode outcome
          obtain ⟨advanced, length⟩ := length_of_decode outcome
          exact ⟨forward, by omega⟩
      | error error =>
          obtain ⟨forward, within⟩ := cursor_of_decode_error more outcome
          have single := Decode.overrun_le error
          exact ⟨forward, by omega⟩

theorem cursor_decode_of_ended (ended : tape.hasNext = false) :
    tape.decode.2.cursor = tape.cursor := by
  have nothing := hasNext_eq_false_iff.mp ended
  rw [decode, cursor_read, nothing, Decode.instruction_nil]
  rfl

theorem cursor_after_decodes (tape : Tape) (count : Nat) :
    min (tape.cursor + count) tape.bytes.length ≤
        (tape.after (List.replicate count .decode)).cursor ∧
      (tape.after (List.replicate count .decode)).cursor ≤ tape.cursor + 95 * count := by
  induction count generalizing tape with
  | zero => exact ⟨Nat.min_le_left _ _, Nat.le_refl _⟩
  | succ count induction =>
      obtain ⟨least, most⟩ := induction tape.decode.2
      have same : tape.decode.2.bytes = tape.bytes := tape.bytes_read Decode.instruction
      have once : tape.after (List.replicate (count + 1) .decode) =
          tape.decode.2.after (List.replicate count .decode) := rfl
      rw [same] at least
      rw [once]
      cases more : tape.hasNext with
      | true =>
          obtain ⟨forward, within⟩ := cursor_decode more
          omega
      | false =>
          -- Further calls at the end change nothing, but then all bytes are passed.
          have stays := cursor_decode_of_ended more
          have beyond : tape.bytes.length ≤ tape.cursor :=
            Nat.le_of_not_lt (of_decide_eq_false more)
          omega

/-- Three operands of the greatest length. -/
theorem decode_longest (condition : Condition) :
    let written := Instruction.branch condition (nested 15) (nested 15) (nested 15)
    decode { bytes := written.encode } = (.ok written, ⟨written.encode, 94⟩) := by
  intro written
  have length : written.encode.length = 94 := by
    simp [written, Instruction.encode, Instruction.operands, Instruction.immediate?]
  have valid : written.WellFormed :=
    ⟨Operand.isByteOperand_nested (by decide), Operand.isByteOperand_nested (by decide),
      Operand.isAddress_nested (by decide)⟩
  exact decode_eq_ok_iff.mpr ⟨valid, List.prefix_refl _, by rw [length]⟩

/-- The last operand has one reference too many, which is refused when it has been read. -/
theorem decode_overlong (condition : Condition) :
    let written := Instruction.branch condition (nested 15) (nested 15) (nested 16)
    decode { bytes := written.encode } = (.error .operandTooDeep, ⟨written.encode, 95⟩) := by
  intro written
  have length : written.encode.length = 96 := by
    simp [written, Instruction.encode, Instruction.operands, Instruction.immediate?]
  have failed : Decode.instruction (written.encode ++ []) = .error .operandTooDeep [0] := by
    rw [Instruction.encode_append, Decode.instruction_code]
    refine (Decode.bind_of_ok (Decode.byteOperand_encode
      (Operand.isByteOperand_nested (by decide)) _)).trans ?_
    refine (Decode.bind_of_ok (Decode.byteOperand_encode
      (Operand.isByteOperand_nested (by decide)) _)).trans ?_
    -- Only the literal behind all the references is left.
    exact Decode.bind_of_error (Decode.operand_nested 16 [])
  rw [List.append_nil] at failed
  unfold decode read rest
  simp [failed, length]

/-- Decoding neither stalls nor runs away. An instruction takes at most 94 bytes, which only a
conditional jump does, and each of its operands at most 31. A failure in front of the end takes
at least one byte and at most 95, the last one for an operand that nests too deep. So the end
is reached in no more calls than there are bytes. -/
theorem decode_bounded :
    (∀ (tape moved : Tape) (decoded : Instruction), tape.decode = (.ok decoded, moved) →
      moved.cursor = tape.cursor + decoded.encode.length ∧
        1 ≤ decoded.encode.length ∧ decoded.encode.length ≤ 94 ∧
        (∀ operand ∈ decoded.operands, operand.encode.length ≤ 31) ∧
        (decoded.encode.length = 94 →
          ∃ condition left right target, decoded = .branch condition left right target)) ∧
    (∀ condition, ∃ left right target moved,
      let written := Instruction.branch condition left right target
      decode { bytes := written.encode } = (.ok written, moved) ∧ moved.cursor = 94) ∧
    (∀ (tape moved : Tape) (error : DecodeError), tape.hasNext = true →
      tape.decode = (.error error, moved) →
      tape.cursor + 1 ≤ moved.cursor ∧ moved.cursor ≤ tape.cursor + 95 ∧
        (moved.cursor = tape.cursor + 95 → error = .operandTooDeep)) ∧
    (∀ condition, ∃ left right target moved,
      let written := Instruction.branch condition left right target
      left.IsByteOperand ∧ right.IsByteOperand ∧ Operand.depthLimit ≤ target.depth ∧
        decode { bytes := written.encode } = (.error .operandTooDeep, moved) ∧
        moved.cursor = 95) ∧
    ∀ (tape : Tape) (count : Nat),
      min (tape.cursor + count) tape.bytes.length ≤
          (tape.after (List.replicate count .decode)).cursor ∧
        (tape.after (List.replicate count .decode)).cursor ≤ tape.cursor + 95 * count := by
  refine ⟨?_, ?_, ?_, ?_, cursor_after_decodes⟩
  · intro tape moved decoded read
    -- What was decoded is well-formed, so none of its operands nests too deep.
    obtain ⟨valid, -, -⟩ := decode_eq_ok_iff.mp read
    obtain ⟨advanced, length⟩ := length_of_decode read
    refine ⟨advanced, length_encode_pos decoded, length, ?_, Instruction.isBranch_of_length valid⟩
    intro operand member
    exact Operand.length_encode_le_longest ((Instruction.wellFormed_iff.mp valid).2 operand member)
  · intro condition
    exact ⟨_, _, _, _, decode_longest condition, rfl⟩
  · intro tape moved error more failed
    obtain ⟨forward, within⟩ := cursor_of_decode_error more failed
    have single := Decode.overrun_le error
    refine ⟨forward, by omega, fun last => ?_⟩
    exact Decode.eq_operandTooDeep_of_overrun (by omega)
  · intro condition
    exact ⟨_, _, _, _, Operand.isByteOperand_nested (by decide),
      Operand.isByteOperand_nested (by decide), by rw [Operand.depth_nested]; exact Nat.le_refl _,
      decode_overlong condition, rfl⟩

/-- The longest instruction, and a jump that is cut off behind its markers. -/
theorem decode_bounded_limits :
    let longest := Instruction.branch .eq (nested 15) (nested 15) (nested 15)
    let broken : Tape := ⟨[0x07, 0xd1, 0xc0, 0xc4, 0xc5], 1⟩
    decode { bytes := longest.encode } = (.ok longest, ⟨longest.encode, 94⟩) ∧
      longest.encode.length ≤ 94 ∧ (∀ operand ∈ longest.operands, operand.encode.length ≤ 31) ∧
      broken.hasNext = true ∧
      broken.decode = (.error .unexpectedEnd, { broken with cursor := 5 }) ∧
      broken.cursor + 1 ≤ 5 ∧ 5 ≤ broken.cursor + 95 ∧
      5 ≤ (broken.after (List.replicate 4 .decode)).cursor := by
  intro longest broken
  have read := decode_longest .eq
  have failed : broken.decode = (.error .unexpectedEnd, { broken with cursor := 5 }) := rfl
  obtain ⟨succeeds, -, fails, -, runs⟩ := decode_bounded
  obtain ⟨-, -, length, operands, -⟩ := succeeds _ _ _ read
  obtain ⟨forward, within, -⟩ := fails broken _ _ rfl failed
  exact ⟨read, length, operands, rfl, failed, forward, within, (runs broken 4).1⟩

end Tape

end ByteMachine
