import ByteMachine.Proofs.Encoding.Exact
import ByteMachine.Proofs.Encoding.Tape

namespace ByteMachine

/-! Truncated programs are told apart from programs that no continuation mends. -/

namespace Tape

/-- An instruction starts the bytes. -/
def Decodes (bytes : List Byte) : Prop :=
  ∃ written, (decode { bytes := bytes }).1 = .ok written

theorem decodes_iff {bytes : List Byte} :
    Decodes bytes ↔ ∃ written rest, Decode.instruction bytes = .ok written rest := by
  constructor
  · rintro ⟨written, decoded⟩
    obtain ⟨valid, ⟨rest, encoded⟩, -⟩ := decode_eq_ok_iff.mp (Prod.ext decoded rfl)
    have read := Decode.instruction_encode valid rest
    rw [encoded] at read
    exact ⟨written, rest, read⟩
  · rintro ⟨written, rest, read⟩
    obtain ⟨valid, encoded⟩ := Decode.instruction_eq_ok read
    have decoded : decode { bytes := bytes } = (.ok written, _) :=
      decode_eq_ok_iff.mpr ⟨valid, ⟨rest, encoded.symm⟩, rfl⟩
    exact ⟨written, congrArg Prod.fst decoded⟩

theorem decode_of_error {bytes rest : List Byte} {error : DecodeError}
    (failed : Decode.instruction bytes = .error error rest) :
    decode { bytes := bytes } = (.error error, ⟨bytes, bytes.length - rest.length⟩) := by
  have whole : Tape.rest { bytes := bytes } = bytes := rfl
  unfold decode read
  rw [whole, failed]
  simp

theorem exists_of_decode_error {bytes : List Byte} {error : DecodeError}
    (failed : (decode { bytes := bytes }).1 = .error error) :
    ∃ rest, Decode.instruction bytes = .error error rest := by
  cases result : Decode.instruction bytes with
  | ok written rest =>
      obtain ⟨other, decoded⟩ := decodes_iff.mpr ⟨written, rest, result⟩
      rw [decoded] at failed
      cases failed
  | error other rest =>
      rw [decode_of_error result] at failed
      cases failed
      exact ⟨rest, rfl⟩

theorem not_decodes_of_error {bytes rest : List Byte} {error : DecodeError}
    (failed : Decode.instruction bytes = .error error rest) : ¬Decodes bytes := by
  intro decodes
  obtain ⟨written, left, read⟩ := decodes_iff.mp decodes
  rw [failed] at read
  cases read

/-- Bytes behind an error do not matter, unless the error is the end of the bytes. -/
theorem not_decodes_of_stuck {bytes other : List Byte} {error : DecodeError}
    (failed : (decode { bytes := bytes }).1 = .error error)
    (different : error ≠ .unexpectedEnd)
    (extended : bytes.take (decode { bytes := bytes }).2.cursor <+: other) :
    ¬Decodes other := by
  obtain ⟨rest, failed⟩ := exists_of_decode_error failed
  obtain ⟨read, rfl, fails⟩ := Decode.exact_instruction.stuck failed different
  rw [decode_of_error failed, List.length_append, Nat.add_sub_cancel, List.take_left]
    at extended
  obtain ⟨suffix, rfl⟩ := extended
  obtain ⟨left, fails⟩ := fails suffix
  exact not_decodes_of_error fails

theorem decode_unexpectedEnd_iff {bytes : List Byte} :
    (decode { bytes := bytes }).1 = .error .unexpectedEnd ↔
      ¬Decodes bytes ∧ ∃ suffix, Decodes (bytes ++ suffix) := by
  constructor
  · intro ended
    obtain ⟨rest, failed⟩ := exists_of_decode_error ended
    obtain ⟨suffix, written, read⟩ := Decode.exact_instruction.truncated failed
    exact ⟨not_decodes_of_error failed, suffix, decodes_iff.mpr ⟨written, [], read⟩⟩
  · rintro ⟨fails, suffix, decodes⟩
    cases result : (decode { bytes := bytes }).1 with
    | ok written => exact absurd ⟨written, result⟩ fails
    | error error =>
        by_cases same : error = .unexpectedEnd
        · rw [same]
        · refine absurd decodes (not_decodes_of_stuck result same ?_)
          exact (List.take_prefix _ bytes).trans (List.prefix_append bytes suffix)

end Tape

theorem Instruction.eq_of_encode_prefix {left right : Instruction}
    (leftValid : left.WellFormed) (rightValid : right.WellFormed)
    (starts : left.encode <+: right.encode) : left = right := by
  obtain ⟨suffix, encoded⟩ := starts
  have whole := Decode.instruction_encode rightValid []
  rw [List.append_nil, ← encoded, Decode.instruction_encode leftValid suffix] at whole
  cases whole
  rfl

/-- Decoding reports the end of the bytes exactly if more bytes could be decoded. Any
other error is final at the place where it is reported, and none is about the length of
a value. So no instruction's bytes are the start of another's. -/
theorem Tape.decode_truncation :
    (∀ bytes : List Byte,
      ((decode { bytes := bytes }).1 = .error .unexpectedEnd ↔
        ¬Decodes bytes ∧ ∃ suffix, Decodes (bytes ++ suffix)) ∧
      (∀ error other, (decode { bytes := bytes }).1 = .error error →
        error ≠ .unexpectedEnd →
        bytes.take (decode { bytes := bytes }).2.cursor <+: other → ¬Decodes other) ∧
      ∀ length, (decode { bytes := bytes }).1 ≠ .error (.invalidLength length)) ∧
    ∀ left right : Instruction, left.IsDecoded → right.IsDecoded →
      left.encode <+: right.encode → left = right := by
  refine ⟨fun bytes => ⟨decode_unexpectedEnd_iff, ?_, ?_⟩, ?_⟩
  · intro error other failed different extended
    exact not_decodes_of_stuck failed different extended
  · intro length failed
    obtain ⟨rest, failed⟩ := exists_of_decode_error failed
    exact Decode.exact_instruction.lengths length failed
  · intro left right leftDecoded rightDecoded starts
    exact Instruction.eq_of_encode_prefix (Instruction.isDecoded_iff.mp leftDecoded)
      (Instruction.isDecoded_iff.mp rightDecoded) starts

theorem Tape.decode_truncation_nested :
    let nested : List Byte := 0xfe :: List.replicate 16 0xc0
    let left : Instruction := .jump (.ref none (.literal 0x20))
    let right : Instruction := .jump (.ref (some .word) (.literal 0x20))
    (decode { bytes := nested }).1 = .error .operandTooDeep ∧
      ¬Decodes (nested ++ [0xc3, 0x20]) ∧
      (decode { bytes := [0xff, 0xc0] }).1 = .error .unexpectedEnd ∧
      (∃ suffix, Decodes ([0xff, 0xc0] ++ suffix)) ∧
      left.IsDecoded ∧ right.IsDecoded ∧ ¬left.encode <+: right.encode := by
  intro nested left right
  have deep : (decode { bytes := nested }).1 = .error .operandTooDeep := rfl
  have ended : (decode { bytes := [0xff, 0xc0] }).1 = .error .unexpectedEnd := rfl
  have leftDecoded : left.IsDecoded := Instruction.isDecoded_iff.mpr (by decide)
  have rightDecoded : right.IsDecoded := Instruction.isDecoded_iff.mpr (by decide)
  refine ⟨deep, ?_, ended, ?_, leftDecoded, rightDecoded, ?_⟩
  · exact (decode_truncation.1 nested).2.1 _ _ deep nofun (List.prefix_append nested _)
  · exact ((decode_truncation.1 _).1.mp ended).2
  · intro starts
    exact absurd (decode_truncation.2 left right leftDecoded rightDecoded starts) (by decide)

end ByteMachine
