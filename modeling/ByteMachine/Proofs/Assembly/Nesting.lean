import ByteMachine.Proofs.Assembly.Language
import ByteMachine.Proofs.Assembly.Lossless
import ByteMachine.Proofs.Encoding.Exact

namespace ByteMachine

open Assembly

/-! How deep operands nest. The innermost operand takes a level of its own, so an operand
with as many references and sizes as there are levels is already too deep, for the decoder and
for the assembler alike. -/

namespace Operand

/-- A byte operand of any depth. -/
def IsByteForm : Operand → Prop
  | ref width inner => (ref width inner).Unambiguous
  | operand => operand.IsByteOperand

theorem isByteOperand_iff {operand : Operand} :
    operand.IsByteOperand ↔ operand.IsByteForm ∧ operand.depth < depthLimit := by
  cases operand with
  | literal byte => exact (and_iff_left (by decide : 0 < depthLimit)).symm
  | top => exact (and_iff_left (by decide : 0 < depthLimit)).symm
  | insPtr => exact (and_iff_left (by decide : 0 < depthLimit)).symm
  | ref width inner => exact isAddress_iff
  | sized width inner => exact ⟨nofun, fun valid => valid.1⟩

theorem depth_of_isPushed {operand : Operand} (valid : operand.IsPushed) :
    operand.depth < depthLimit := by
  cases operand with
  | literal byte => exact (by decide : 0 < depthLimit)
  | insPtr => exact (by decide : 0 < depthLimit)
  | top => cases valid
  | ref width inner => cases valid
  | sized width inner => cases valid

end Operand

namespace Instruction

variable {written : Instruction}

/-- The instruction is well-formed, or would be so if operands could nest to any depth. -/
def Grammatical (written : Instruction) : Prop :=
  written.OperandsAre Operand.Unambiguous Operand.IsByteForm Operand.IsPushed

theorem OperandsAre.imp {address byteOperand pushed : Operand → Prop}
    {otherAddress otherByte otherPushed : Operand → Prop}
    (all : written.OperandsAre address byteOperand pushed)
    (addresses : ∀ operand, address operand → otherAddress operand)
    (bytes : ∀ operand, byteOperand operand → otherByte operand)
    (pushes : ∀ operand, pushed operand → otherPushed operand) :
    written.OperandsAre otherAddress otherByte otherPushed := by
  cases written <;> simp_all [OperandsAre]

theorem wellFormed_iff :
    written.WellFormed ↔
      written.Grammatical ∧ ∀ operand ∈ written.operands, operand.depth < Operand.depthLimit := by
  cases written with
  | push source =>
      simp only [WellFormed, Grammatical, OperandsAre, operands, List.mem_singleton, forall_eq]
      exact ⟨fun valid => ⟨valid, Operand.depth_of_isPushed valid⟩, fun valid => valid.1⟩
  | _ =>
      simp only [WellFormed, Grammatical, OperandsAre, operands, List.forall_mem_cons,
        Operand.isAddress_iff, Operand.isByteOperand_iff]
      grind

end Instruction

namespace Decode

variable {α β : Type} {reader : Decode α} {bytes : List Byte} {result : α}
  {operand : Operand} {written : Instruction}

/-- Whatever comes behind the bytes, the reader reads just them and returns the result, or
it finds that an operand nests too deep. -/
def ReadsOrTooDeep (reader : Decode α) (bytes : List Byte) (result : α) : Prop :=
  (∀ rest, reader (bytes ++ rest) = .ok result rest) ∨
    ∀ rest, ∃ left, reader (bytes ++ rest) = .error .operandTooDeep left

namespace ReadsOrTooDeep

theorem pure : ReadsOrTooDeep (pure result) [] result :=
  .inl fun _ => rfl

theorem bind {after : α → Decode β} {later : List Byte} {last : β}
    (first : ReadsOrTooDeep reader bytes result)
    (second : ReadsOrTooDeep (after result) later last) :
    ReadsOrTooDeep (reader >>= after) (bytes ++ later) last := by
  rcases first with reads | fails
  · rcases second with readsLater | failsLater
    · refine .inl fun rest => ?_
      rw [List.append_assoc, bind_of_ok (reads _), readsLater]
    · refine .inr fun rest => ?_
      rw [List.append_assoc, bind_of_ok (reads _)]
      exact failsLater rest
  · refine .inr fun rest => ?_
    obtain ⟨left, failed⟩ := fails (later ++ rest)
    rw [List.append_assoc]
    exact ⟨left, bind_of_error failed⟩

end ReadsOrTooDeep

theorem operand_tooDeep {levels : Nat} (valid : operand.Unambiguous)
    (deep : levels ≤ operand.depth) (rest : List Byte) :
    ∃ left, Decode.operand levels (operand.encode ++ rest) = .error .operandTooDeep left := by
  induction levels generalizing operand with
  | zero => exact ⟨_, rfl⟩
  | succ levels induction =>
      cases operand with
      | literal byte => cases deep
      | top => cases deep
      | insPtr => cases deep
      | ref width inner =>
          obtain ⟨unsized, below⟩ := Operand.unambiguous_ref.mp valid
          obtain ⟨left, failed⟩ := induction below (Nat.le_of_succ_le_succ deep)
          cases width with
          | some width => exact ⟨left, operand_ref_size_error failed width⟩
          | none =>
              have other := Operand.encode_append_ne_size below (unsized rfl) rest
              exact ⟨left, operand_ref_error failed other⟩
      | sized width inner =>
          have below := Operand.unambiguous_sized.mp valid
          obtain ⟨left, failed⟩ := induction below (Nat.le_of_succ_le_succ deep)
          exact ⟨left, operand_size_error failed width⟩

theorem address_outcome (valid : operand.Unambiguous) :
    ReadsOrTooDeep address operand.encode operand := by
  rcases Nat.lt_or_ge operand.depth Operand.depthLimit with shallow | deep
  · exact .inl (address_encode ⟨valid, shallow⟩)
  · exact .inr (operand_tooDeep valid deep)

theorem byteOperand_outcome (valid : operand.IsByteForm) :
    ReadsOrTooDeep byteOperand operand.encode operand := by
  cases operand with
  | ref width inner =>
      have outcome := address_outcome valid
      cases width with
      | none => exact outcome
      | some width => exact outcome
  | literal byte => exact .inl (byteOperand_encode valid)
  | top => exact .inl (byteOperand_encode valid)
  | insPtr => exact .inl (byteOperand_encode valid)
  | sized width inner => cases valid

theorem pushed_outcome (valid : operand.IsPushed) :
    ReadsOrTooDeep pushed operand.encode operand :=
  .inl fun _ => pushed_eq_ok_iff.mpr ⟨valid, rfl⟩

theorem instruction_outcome (valid : written.Grammatical) :
    ReadsOrTooDeep instruction written.encode written := by
  have body : ReadsOrTooDeep (body written.opcode)
      (written.operands.foldr (fun operand tail => operand.encode ++ tail)
        ((written.immediate?.map (·.bytes)).getD [] ++ [])) written := by
    cases written with
    | move destination source =>
        exact (address_outcome valid.1).bind ((address_outcome valid.2).bind .pure)
    | load destination value =>
        exact (address_outcome valid).bind (.bind (.inl (value_bytes value)) .pure)
    | jump target => exact (address_outcome valid).bind .pure
    | push source => exact (pushed_outcome valid).bind .pure
    | pop => exact .pure
    | arithmetic op left right =>
        exact (byteOperand_outcome valid.1).bind ((byteOperand_outcome valid.2).bind .pure)
    | compare condition left right =>
        exact (byteOperand_outcome valid.1).bind ((byteOperand_outcome valid.2).bind .pure)
    | branch condition left right target =>
        exact (byteOperand_outcome valid.1).bind
          ((byteOperand_outcome valid.2.1).bind ((address_outcome valid.2.2).bind .pure))
    | bitwise op destination source =>
        exact (address_outcome valid.1).bind ((byteOperand_outcome valid.2).bind .pure)
    | invert destination => exact (address_outcome valid).bind .pure
  rw [← List.append_nil written.encode, Instruction.encode_append]
  simpa only [ReadsOrTooDeep, List.cons_append, instruction_code] using body

end Decode

theorem Tape.decode_outcome {tape : Tape} {written : Instruction} {after : List Byte}
    (valid : written.Grammatical) (ahead : tape.rest = written.encode ++ after) :
    (written.WellFormed ∧ tape.decode.1 = .ok written) ∨
      (¬written.WellFormed ∧ tape.decode.1 = .error .operandTooDeep) := by
  unfold decode read
  rw [ahead]
  by_cases formed : written.WellFormed
  · rw [Decode.instruction_encode formed]
    exact .inl ⟨formed, rfl⟩
  · rcases Decode.instruction_outcome valid with reads | fails
    · exact absurd (Decode.instruction_eq_ok (reads [])).1 formed
    · obtain ⟨left, failed⟩ := fails after
      rw [failed]
      exact .inr ⟨formed, rfl⟩

namespace Assembly

namespace Parse

variable {opcode : Opcode} {operand : Operand} {written : Instruction}

theorem address_takesOrTooDeep (valid : operand.Unambiguous) :
    TakesOrRefuses (address opcode) operand.tokens operand (· = .operandTooDeep) := by
  refine (operand_outcome valid.apart Operand.depthLimit).imp ?_
  intro cause refused
  cases refused with
  | ambiguous member =>
      exact absurd (List.mem_map_of_mem (Opcode.mem_all _)) (valid.literals _ member)
  | tooDeep deep => rfl

theorem byteOperand_takesOrTooDeep (valid : operand.IsByteForm) :
    TakesOrRefuses (byteOperand opcode) operand.tokens operand (· = .operandTooDeep) := by
  cases operand with
  | ref width inner =>
      have outcome : TakesOrRefuses (address opcode) (Operand.ref width inner).tokens
          (.ref width inner) (· = .operandTooDeep) := address_takesOrTooDeep valid
      cases width with
      | none => exact outcome.of_eq fun rest => byteOperand_name rfl _
      | some width => exact outcome.of_eq fun rest => byteOperand_name rfl _
  | literal byte => exact .inl (byteOperand_tokens valid)
  | top => exact .inl (byteOperand_tokens valid)
  | insPtr => exact .inl (byteOperand_tokens valid)
  | sized width inner => cases valid

theorem body_takesOrTooDeep (valid : written.Grammatical) :
    TakesOrRefuses (body written.opcode) written.arguments written (· = .operandTooDeep) :=
  body_of_operandsAre <| valid.imp (fun _ => address_takesOrTooDeep)
    (fun _ => byteOperand_takesOrTooDeep) (fun _ pushed => .inl (pushed_tokens pushed))

end Parse

theorem assemble_text (statement : Statement) :
    assemble statement.text = (assembleLine statement.text.toList).mapError (Error.mk 1) := by
  rw [assemble, statement.lines_text, assembleLines]
  cases assembleLine statement.text.toList with
  | error cause => rfl
  | ok bytes => exact congrArg Except.ok (List.append_nil bytes)

theorem assemble_outcome {written : Instruction} (valid : written.Grammatical) :
    (written.WellFormed ∧ assemble written.text = .ok written.encode) ∨
      (¬written.WellFormed ∧ assemble written.text = .error ⟨1, .operandTooDeep⟩) := by
  have whole := assemble_text (.instruction written)
  by_cases formed : written.WellFormed
  · have printable : (Statement.instruction written).Printable := formed
    rw [assembleLine_text printable] at whole
    exact .inl ⟨formed, whole⟩
  · rcases Parse.body_takesOrTooDeep valid with takes | ⟨cause, rfl, refuses⟩
    · exact absurd (Parse.body_eq_ok (takes [])).1 formed
    · have refused := refuses []
      rw [List.append_nil] at refused
      have line : Statement.ofLine (Statement.instruction written).text.toList =
          .error .operandTooDeep :=
        written.ofLine_text.trans (Statement.ofTokens_tokens_error refused)
      rw [assembleLine, line] at whole
      exact .inr ⟨formed, whole⟩

end Assembly

namespace Instruction

variable {written : Instruction}

theorem not_wellFormed_iff (valid : written.Grammatical) :
    ¬written.WellFormed ↔
      ∃ operand ∈ written.operands, Operand.depthLimit ≤ operand.depth := by
  rw [wellFormed_iff]
  simp [valid]

/-- An instruction is refused because of its nesting just if one of its operands has at least
as many references and sizes as operands may nest, wherever its bytes are on a tape and also as
a text. With fewer in all of them, it is read. -/
theorem nesting_limit (valid : written.Grammatical) :
    (∀ (tape : Tape) (after : List Byte), tape.rest = written.encode ++ after →
      ((tape.decode.1 = .error .operandTooDeep ↔
          ∃ operand ∈ written.operands, Operand.depthLimit ≤ operand.depth) ∧
        (tape.decode.1 = .ok written ↔
          ∀ operand ∈ written.operands, operand.depth < Operand.depthLimit))) ∧
    (assemble written.text = .error ⟨1, .operandTooDeep⟩ ↔
      ∃ operand ∈ written.operands, Operand.depthLimit ≤ operand.depth) ∧
    (assemble written.text = .ok written.encode ↔
      ∀ operand ∈ written.operands, operand.depth < Operand.depthLimit) := by
  have shallow : written.WellFormed ↔
      ∀ operand ∈ written.operands, operand.depth < Operand.depthLimit :=
    wellFormed_iff.trans (and_iff_right valid)
  simp only [← not_wellFormed_iff valid, ← shallow]
  constructor
  · intro tape after ahead
    rcases Tape.decode_outcome valid ahead with ⟨formed, read⟩ | ⟨malformed, failed⟩
    · simp [formed, read]
    · simp [malformed, failed]
  · rcases assemble_outcome valid with ⟨formed, read⟩ | ⟨malformed, failed⟩
    · simp [formed, read]
    · simp [malformed, failed]

/-- Fifteen references, of two markers each, are read in one operand. -/
theorem nesting_limit_wide_references :
    let written := invert (Nat.iterate (Operand.ref (some .quadWord)) 15 (.literal 0x10))
    let tape : Tape := { bytes := written.encode }
    written.Grammatical ∧ tape.decode.1 = .ok written ∧
      assemble written.text = .ok written.encode := by
  intro written tape
  have valid : written.Grammatical :=
    (by decide : (Nat.iterate (Operand.ref (some .quadWord)) 15 (.literal 0x10)).Unambiguous)
  have shallow : ∀ operand ∈ written.operands, operand.depth < Operand.depthLimit := by decide
  obtain ⟨decodes, -, assembles⟩ := nesting_limit valid
  exact ⟨valid, (decodes tape [] (List.append_nil _).symm).2.mpr shallow, assembles.mpr shallow⟩

/-- Sixteen references are not more than sixteen, and yet refused. -/
theorem sixteen_references_refused :
    let target := Nat.iterate (Operand.ref none) 16 (.literal 0)
    let tape : Tape := { bytes := (jump target).encode }
    target.Unambiguous ∧ ¬16 < target.depth ∧ tape.decode.1 = .error .operandTooDeep ∧
      assemble (jump target).text = .error ⟨1, .operandTooDeep⟩ := by
  intro target tape
  have valid : target.Unambiguous := by decide
  have whole : tape.rest = (jump target).encode ++ [] := by rfl
  have malformed : ¬(jump target).WellFormed := by decide
  have decodes := (@Tape.decode_outcome tape (jump target) [] valid whole).resolve_left
    fun formed => malformed formed.1
  have assembles := (@assemble_outcome (jump target) valid).resolve_left
    fun formed => malformed formed.1
  exact ⟨valid, by decide, decodes.2, assembles.2⟩

end Instruction

end ByteMachine
