import ByteMachine.Proofs.Assembly.Accepted
import ByteMachine.Proofs.Encoding.Tape

namespace ByteMachine

open Assembly

/-! The assembler and the decoder accept the same instructions. What the assembler
refuses of the text of an instruction, the decoder could not read back. -/

namespace Instruction

/-- Some line of tokens says the instruction. -/
def IsParsed (written : Instruction) : Prop :=
  ∃ tokens, Statement.ofTokens tokens = .ok (some (.instruction written))

theorem isParsed_iff {written : Instruction} :
    written.IsParsed ↔ written.WellFormed := by
  constructor
  · rintro ⟨tokens, read⟩
    exact (Statement.ofTokens_eq_ok_iff.mp read).1
  · intro valid
    exact ⟨_, Statement.ofTokens_eq_ok_iff.mpr ⟨valid, rfl⟩⟩

theorem ofLine_text (written : Instruction) :
    Statement.ofLine written.text.toList =
      Statement.ofTokens (Statement.instruction written).tokens := by
  have spelled := (Statement.instruction written).tokens_text.1
  change (Assembly.tokens (Statement.instruction written).text.toList >>=
    Statement.ofTokens) = _
  rw [spelled]
  rfl

theorem ofLine_text_eq_ok_iff {written : Instruction} :
    Statement.ofLine written.text.toList = .ok (some (.instruction written)) ↔
      written.WellFormed := by
  rw [ofLine_text, Statement.ofTokens_eq_ok_iff]
  exact ⟨fun read => read.1, fun valid => ⟨valid, rfl⟩⟩

/-- In every operand, a size directly below a reference is the width of the
reference, as it is in a line of tokens. -/
def SizesApart (written : Instruction) : Prop :=
  ∀ operand ∈ written.operands, operand.SizesApart

/-- The operands that are asked for a byte and not for an address. -/
def byteOperands : Instruction → List Operand
  | arithmetic _ left right => [left, right]
  | compare _ left right => [left, right]
  | branch _ left right _ => [left, right]
  | bitwise _ _ source => [source]
  | _ => []

/-- Each operand is as its place in the instruction asks. -/
def OperandsAre (address byteOperand pushed : Operand → Prop) : Instruction → Prop
  | move destination source => address destination ∧ address source
  | load destination _ => address destination
  | jump target => address target
  | push source => pushed source
  | pop => True
  | arithmetic _ left right => byteOperand left ∧ byteOperand right
  | compare _ left right => byteOperand left ∧ byteOperand right
  | branch _ left right target => byteOperand left ∧ byteOperand right ∧ address target
  | bitwise _ destination source => address destination ∧ byteOperand source
  | invert destination => address destination

theorem operandsAre_of_mem {address byteOperand pushed : Operand → Prop} {written : Instruction}
    (addresses : ∀ operand ∈ written.operands, address operand)
    (bytes : ∀ operand ∈ written.operands, operand ∈ written.byteOperands → byteOperand operand)
    (pushes : ∀ source, written = .push source → pushed source) :
    written.OperandsAre address byteOperand pushed := by
  cases written with
  | push source => exact pushes source rfl
  | _ => simp_all [OperandsAre, operands, byteOperands]

end Instruction

/-- Why an operand of at most `levels` nested operands cannot be written: the byte of
a literal is that of an opcode, or the operand nests too deep. -/
inductive Operand.Refused (levels : Nat) (operand : Operand) : Cause → Prop where
  | ambiguous {opcode : Opcode} (member : opcode.code ∈ operand.literals) :
      Refused levels operand (.ambiguousLiteral opcode.code opcode)
  | tooDeep (deep : levels ≤ operand.depth) : Refused levels operand .operandTooDeep

/-- Why an instruction cannot be written. A byte operand cannot start with a size,
and what is pushed has no marker but that of the instruction pointer. -/
inductive Instruction.Refused (written : Instruction) : Cause → Prop where
  | operand {operand : Operand} {cause : Cause} (member : operand ∈ written.operands)
      (refused : operand.Refused Operand.depthLimit cause) : Refused written cause
  | size {width : Width} {inner : Operand}
      (member : .sized width inner ∈ written.byteOperands) :
      Refused written (.unexpectedToken (Opcode.size width).mnemonic)
  | pushed {source : Operand} {marker : Opcode} (push : written = .push source)
      (marked : source.marker? = some marker) :
      Refused written (.unexpectedToken marker.mnemonic)

namespace Operand

theorem refused_literal (levels : Nat) (opcode : Opcode) :
    (literal opcode.code).Refused levels (.ambiguousLiteral opcode.code opcode) :=
  .ambiguous (by simp [literals])

/-- An operand one level up has the same literals. -/
theorem Refused.outer {levels : Nat} {inner outer : Operand} {cause : Cause}
    (refused : inner.Refused levels cause) (literals : outer.literals = inner.literals)
    (depth : outer.depth = inner.depth + 1) : outer.Refused (levels + 1) cause := by
  cases refused with
  | ambiguous member => exact .ambiguous (literals ▸ member)
  | tooDeep deep => exact .tooDeep (depth ▸ Nat.succ_le_succ deep)

end Operand

namespace Assembly

namespace Parse

variable {α β : Type} {reader : Parse α} {tokens : List Token} {opcode : Opcode}

theorem bind_of_ok {after : α → Parse β} {first : α} {left : List Token}
    (read : reader tokens = .ok (first, left)) :
    (reader >>= after) tokens = after first left := by
  change (reader tokens >>= fun found => after found.1 found.2) = _
  rw [read]
  rfl

theorem bind_of_error {after : α → Parse β} {cause : Cause}
    (failed : reader tokens = .error cause) :
    (reader >>= after) tokens = .error cause := by
  change (reader tokens >>= fun found => after found.1 found.2) = _
  rw [failed]
  rfl

theorem lift_of_error {answer : Except Cause α} {cause : Cause}
    (answered : answer = .error cause) :
    (liftM answer : Parse α) tokens = .error cause := by
  rw [answered]
  rfl

/-- Whatever comes behind the tokens, the reader takes just them and returns the
result, or it refuses them for one of the causes. -/
def TakesOrRefuses (reader : Parse α) (tokens : List Token) (result : α)
    (causes : Cause → Prop) : Prop :=
  (∀ rest, reader (tokens ++ rest) = .ok (result, rest)) ∨
    ∃ cause, causes cause ∧ ∀ rest, reader (tokens ++ rest) = .error cause

namespace TakesOrRefuses

variable {result : α} {causes : Cause → Prop}

theorem imp {others : Cause → Prop} (outcome : TakesOrRefuses reader tokens result causes)
    (implied : ∀ cause, causes cause → others cause) :
    TakesOrRefuses reader tokens result others := by
  rcases outcome with takes | ⟨cause, refused, refuses⟩
  · exact .inl takes
  · exact .inr ⟨cause, implied cause refused, refuses⟩

theorem pure : TakesOrRefuses (pure result) [] result causes :=
  .inl fun _ => rfl

theorem bind {after : α → Parse β} {later : List Token} {last : β}
    (first : TakesOrRefuses reader tokens result causes)
    (second : TakesOrRefuses (after result) later last causes) :
    TakesOrRefuses (reader >>= after) (tokens ++ later) last causes := by
  rcases first with takes | ⟨cause, refused, refuses⟩
  · rcases second with takesLater | ⟨cause, refused, refuses⟩
    · refine .inl fun rest => ?_
      rw [List.append_assoc, bind_of_ok (takes _), takesLater]
    · refine .inr ⟨cause, refused, fun rest => ?_⟩
      rw [List.append_assoc, bind_of_ok (takes _), refuses]
  · refine .inr ⟨cause, refused, fun rest => ?_⟩
    rw [List.append_assoc, bind_of_error (refuses _)]

theorem map (outcome : TakesOrRefuses reader tokens result causes) (change : α → β) :
    TakesOrRefuses (do let found ← reader; return change found) tokens (change result)
      causes := by
  have mapped : TakesOrRefuses (do let found ← reader; return change found)
      (tokens ++ []) (change result) causes := outcome.bind pure
  rwa [List.append_nil] at mapped

theorem of_eq {other : Parse α} {later : List Token}
    (outcome : TakesOrRefuses other later result causes)
    (same : ∀ rest, reader (tokens ++ rest) = other (later ++ rest)) :
    TakesOrRefuses reader tokens result causes := by
  simpa only [TakesOrRefuses, same] using outcome

end TakesOrRefuses

theorem literal_marker {symbol : Byte → Symbol} {found : Byte} {marker : Opcode}
    (marked : symbol found = .marker marker) :
    literal symbol found.toNat = .error (.ambiguousLiteral found marker) := by
  simp only [literal, byte_toNat, bind, Except.bind, marked]
  rfl

theorem operand_outcome {written : Operand} (apart : written.SizesApart) (levels : Nat) :
    TakesOrRefuses (operand opcode levels) written.tokens written
      (written.Refused levels) := by
  induction levels generalizing written with
  | zero => exact .inr ⟨_, .tooDeep (Nat.zero_le _), fun _ => rfl⟩
  | succ levels induction =>
      cases written with
      | literal byte =>
          cases entry : Opcode.ofByte? byte with
          | none => exact .inl (operand_number levels entry)
          | some marker =>
              obtain rfl := Opcode.ofByte?_eq_some_iff.mp entry
              refine .inr ⟨_, Operand.refused_literal _ marker, fun rest => ?_⟩
              refine (next_bind _ _ _).trans ?_
              exact lift_of_error (literal_marker (Symbol.ofByte_code marker))
      | top => exact .inl (operand_name levels .top)
      | insPtr => exact .inl (operand_name levels .insPtr)
      | ref width inner =>
          obtain ⟨unsized, apart⟩ := apart
          have below : TakesOrRefuses _ inner.tokens inner
              ((Operand.ref width inner).Refused (levels + 1)) :=
            (induction apart).imp fun _ refused => refused.outer rfl rfl
          cases width with
          | some width =>
              have size : TakesOrRefuses size? [.name (Opcode.size width).mnemonic]
                  (some width) ((Operand.ref (some width) inner).Refused (levels + 1)) :=
                .inl (size?_size width)
              exact (size.bind (below.map (Operand.ref (some width)))).of_eq
                fun rest => operand_name levels .ref _
          | none =>
              refine (below.map (Operand.ref none)).of_eq fun rest => ?_
              refine (operand_name levels .ref _).trans ?_
              exact bind_of_ok (size?_tokens (unsized rfl) rest)
      | sized width inner =>
          change inner.SizesApart at apart
          have below : TakesOrRefuses _ inner.tokens inner
              ((Operand.sized width inner).Refused (levels + 1)) :=
            (induction apart).imp fun _ refused => refused.outer rfl rfl
          exact (below.map (Operand.sized width)).of_eq
            fun rest => operand_name levels (.size width) _

variable {written : Instruction} {operand : Operand}

theorem address_outcome (apart : written.SizesApart) (member : operand ∈ written.operands) :
    TakesOrRefuses (address opcode) operand.tokens operand written.Refused :=
  (operand_outcome (apart operand member) Operand.depthLimit).imp
    fun _ refused => .operand member refused

theorem byteOperand_outcome (apart : written.SizesApart)
    (member : operand ∈ written.operands) (asked : operand ∈ written.byteOperands) :
    TakesOrRefuses (byteOperand opcode) operand.tokens operand written.Refused := by
  cases operand with
  | literal byte =>
      cases symbol : Symbol.ofValueByte byte with
      | literal found =>
          obtain ⟨-, plain⟩ := Symbol.ofValueByte_eq_literal_iff.mp symbol
          exact .inl (byteOperand_tokens plain)
      | marker marker =>
          obtain ⟨rfl, -⟩ := Symbol.ofValueByte_eq_marker symbol
          refine .inr ⟨_, .operand member (Operand.refused_literal _ marker), fun rest => ?_⟩
          change (literal Symbol.ofValueByte marker.code.toNat >>= fun _ => _) = _
          rw [literal_marker symbol]
          rfl
  | top => exact .inl (byteOperand_tokens trivial)
  | insPtr => exact .inl (byteOperand_tokens trivial)
  | ref width inner =>
      have outcome : TakesOrRefuses (address opcode) (Operand.ref width inner).tokens
          (.ref width inner) written.Refused := address_outcome apart member
      cases width with
      | none => exact outcome.of_eq fun rest => byteOperand_name rfl _
      | some width => exact outcome.of_eq fun rest => byteOperand_name rfl _
  | sized width inner =>
      refine .inr ⟨_, .size asked, fun rest => ?_⟩
      simp [Operand.tokens, byteOperand, Opcode.width?]

theorem pushed_outcome (source : Operand) :
    TakesOrRefuses (pushed opcode) source.tokens source (Instruction.push source).Refused := by
  cases source with
  | literal byte =>
      by_cases pointer : byte = Opcode.insPtr.code
      · subst pointer
        have refused := Operand.refused_literal Operand.depthLimit .insPtr
        exact .inr ⟨_, .operand (List.mem_singleton_self _) refused, fun rest => rfl⟩
      · exact .inl (pushed_tokens pointer)
  | top => exact .inr ⟨_, .pushed rfl rfl, fun rest => rfl⟩
  | insPtr => exact .inl (pushed_tokens trivial)
  | ref width inner =>
      refine .inr ⟨_, .pushed rfl rfl, fun rest => ?_⟩
      cases width <;> rfl
  | sized width inner =>
      refine .inr ⟨_, .pushed rfl rfl, fun rest => ?_⟩
      cases width <;> rfl

theorem body_of_operandsAre {causes : Cause → Prop}
    (outcomes : written.OperandsAre
      (fun operand => TakesOrRefuses (address written.opcode) operand.tokens operand causes)
      (fun operand => TakesOrRefuses (byteOperand written.opcode) operand.tokens operand causes)
      (fun operand => TakesOrRefuses (pushed written.opcode) operand.tokens operand causes)) :
    TakesOrRefuses (body written.opcode) written.arguments written causes := by
  rw [← List.append_nil written.arguments, Instruction.arguments_append]
  cases written with
  | move destination source => exact outcomes.1.bind (outcomes.2.bind .pure)
  | load destination value => exact outcomes.bind (.bind (.inl (immediate_toNat value)) .pure)
  | jump target => exact outcomes.bind .pure
  | push source => exact outcomes.bind .pure
  | pop => exact .pure
  | arithmetic op left right => exact outcomes.1.bind (outcomes.2.bind .pure)
  | compare condition left right => exact outcomes.1.bind (outcomes.2.bind .pure)
  | branch condition left right target =>
      exact outcomes.1.bind (outcomes.2.1.bind (outcomes.2.2.bind .pure))
  | bitwise op destination source => exact outcomes.1.bind (outcomes.2.bind .pure)
  | invert destination => exact outcomes.bind .pure

theorem body_outcome (apart : written.SizesApart) :
    TakesOrRefuses (body written.opcode) written.arguments written written.Refused := by
  apply body_of_operandsAre
  apply Instruction.operandsAre_of_mem
  · intro operand member
    exact address_outcome apart member
  · intro operand member asked
    exact byteOperand_outcome apart member asked
  · rintro source rfl
    exact pushed_outcome source

end Parse

namespace Statement

theorem ofTokens_tokens_error {written : Instruction} {cause : Cause}
    (refuses : Parse.body written.opcode written.arguments = .error cause) :
    ofTokens (instruction written).tokens = .error cause := by
  rw [tokens, ofTokens, if_neg (mnemonic_ne_dataMnemonic _)]
  simp only [Opcode.ofMnemonic?_mnemonic, instructionOfTokens, refuses]
  rfl

end Statement

end Assembly

namespace Instruction

theorem ofLine_text_refused {written : Instruction} (apart : written.SizesApart)
    (malformed : ¬written.WellFormed) :
    ∃ cause, written.Refused cause ∧
      Statement.ofLine written.text.toList = .error cause := by
  rcases Parse.body_outcome apart with takes | ⟨cause, refused, refuses⟩
  · obtain ⟨valid, -, -⟩ := Parse.body_eq_ok (takes [])
    exact absurd valid malformed
  · have refuses := refuses []
    rw [List.append_nil] at refuses
    refine ⟨cause, refused, ?_⟩
    rw [ofLine_text, Statement.ofTokens_tokens_error refuses]

/-- The instructions that lines of tokens say are those that tapes hold. The text of
each is read back as that instruction, so no two of them share a text. Of all others
that a line can spell, the text is refused, and the cause names what could not be
decoded. -/
theorem parsed_iff_decoded :
    (∀ written : Instruction, written.IsParsed ↔ written.IsDecoded) ∧
    (∀ written : Instruction, written.IsDecoded ↔
      Statement.ofLine written.text.toList = .ok (some (.instruction written))) ∧
    (∀ left right : Instruction, left.IsDecoded → right.IsDecoded →
      left.text = right.text → left = right) ∧
    ∀ written : Instruction, written.SizesApart →
      (¬written.IsDecoded ↔ ∃ cause, written.Refused cause ∧
        Statement.ofLine written.text.toList = .error cause) := by
  refine ⟨?_, ?_, ?_, ?_⟩
  · intro written
    rw [isParsed_iff, isDecoded_iff]
  · intro written
    rw [isDecoded_iff, ofLine_text_eq_ok_iff]
  · intro left right leftDecoded rightDecoded same
    rw [isDecoded_iff, ← ofLine_text_eq_ok_iff] at leftDecoded rightDecoded
    rw [same, rightDecoded] at leftDecoded
    cases leftDecoded
    rfl
  · intro written apart
    rw [isDecoded_iff]
    constructor
    · exact ofLine_text_refused apart
    · rintro ⟨cause, -, refuses⟩ valid
      rw [ofLine_text_eq_ok_iff.mpr valid] at refuses
      cases refuses

theorem parsed_iff_decoded_size_byte :
    let literal : Instruction :=
      .arithmetic .add (.literal 0xc3) (.ref (some .quadWord) .insPtr)
    let sized : Instruction := .arithmetic .add (.sized .word (.literal 0x10)) .top
    literal.IsDecoded ∧ literal.IsParsed ∧
      Statement.ofLine literal.text.toList = .ok (some (.instruction literal)) ∧
      pop.IsDecoded ∧ literal.text ≠ pop.text ∧
      sized.SizesApart ∧ ¬sized.IsDecoded ∧
      ∃ cause, sized.Refused cause ∧ Statement.ofLine sized.text.toList = .error cause := by
  intro literal sized
  have decoded : literal.IsDecoded := isDecoded_iff.mpr (by decide)
  have popDecoded : pop.IsDecoded := isDecoded_iff.mpr trivial
  have apart : sized.SizesApart := by simp [sized, SizesApart, operands, Operand.SizesApart]
  have lost : ¬sized.IsDecoded := fun read => absurd (isDecoded_iff.mp read) (by decide)
  have texts : literal.text ≠ pop.text := by
    intro same
    exact absurd (parsed_iff_decoded.2.2.1 literal pop decoded popDecoded same) (by decide)
  exact ⟨decoded, (parsed_iff_decoded.1 literal).mpr decoded,
    (parsed_iff_decoded.2.1 literal).mp decoded, popDecoded, texts, apart, lost,
    (parsed_iff_decoded.2.2.2 sized apart).mp lost⟩

end Instruction

end ByteMachine
