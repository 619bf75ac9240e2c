import ByteMachine.Proofs.Assembly.Spelling
import ByteMachine.Proofs.Encoding.Decode

namespace ByteMachine

/-! Well-formed statements are read back from their tokens. -/

theorem Instruction.arguments_append (written : Instruction)
    (rest : List Assembly.Token) :
    written.arguments ++ rest =
      written.operands.foldr (fun operand tail => operand.tokens ++ tail)
        ((written.immediate?.map fun value => .number value.toNat).toList ++ rest) := by
  rw [arguments, List.append_assoc, List.flatMap_def, List.foldr_append_eq_append]

namespace Assembly

namespace Parse

variable {α β : Type} {tokens rest : List Token} {opcode : Opcode}

theorem bind_eq_ok {reader : Parse α} {after : α → Parse β} {result : β} :
    (reader >>= after) tokens = .ok (result, rest) ↔
      ∃ first left, reader tokens = .ok (first, left) ∧
        after first left = .ok (result, rest) := by
  change (reader tokens >>= fun found => after found.1 found.2) = _ ↔ _
  cases reader tokens with
  | error cause => simp [bind, Except.bind]
  | ok found =>
      constructor
      · intro read
        exact ⟨found.1, found.2, rfl, read⟩
      · intro composed
        obtain ⟨first, left, same, read⟩ := composed
        cases same
        exact read

theorem bind_ok {reader : Parse α} {after : α → Parse β} {first : α} {result : β}
    {left : List Token} (read : reader tokens = .ok (first, left))
    (later : after first left = .ok (result, rest)) :
    (reader >>= after) tokens = .ok (result, rest) :=
  bind_eq_ok.mpr ⟨first, left, read, later⟩

theorem next_bind (after : Token → Parse β) (token : Token) (rest : List Token) :
    (next opcode >>= after) (token :: rest) = after token rest := rfl

theorem lift_of_ok {answer : Except Cause α} {found : α} (answered : answer = .ok found) :
    (liftM answer : Parse α) tokens = .ok (found, tokens) := by
  rw [answered]
  rfl

theorem byte_toNat (found : Byte) : byte found.toNat = .ok found := by
  have small := found.toNat_lt
  simp [byte, small]

theorem literal_toNat {symbol : Byte → Symbol} {found : Byte}
    (plain : symbol found = .literal found) :
    literal symbol found.toNat = .ok (.literal found) := by
  simp only [literal, byte_toNat, bind, Except.bind, plain]
  rfl

@[simp] theorem size?_size (width : Width) (rest : List Token) :
    size? (.name (Opcode.size width).mnemonic :: rest) = .ok (some width, rest) := by
  simp [size?, Opcode.width?]

theorem size?_tokens {written : Operand} (unsized : written.isSized = false)
    (rest : List Token) :
    size? (written.tokens ++ rest) = .ok (none, written.tokens ++ rest) := by
  cases written with
  | literal byte => rfl
  | top => simp [Operand.tokens, size?, Opcode.width?]
  | insPtr => simp [Operand.tokens, size?, Opcode.width?]
  | ref width inner => cases width <;> simp [Operand.tokens, size?, Opcode.width?]
  | sized width inner => cases unsized

theorem operand_number (levels : Nat) {found : Byte}
    (unknown : Opcode.ofByte? found = none) (rest : List Token) :
    operand opcode (levels + 1) (.number found.toNat :: rest) =
      .ok (.literal found, rest) := by
  rw [operand, next_bind]
  exact lift_of_ok (literal_toNat (Symbol.ofByte_of_unknown unknown))

theorem operand_name (levels : Nat) (marker : Opcode) (rest : List Token) :
    operand opcode (levels + 1) (.name marker.mnemonic :: rest) =
      (match marker with
        | .top => return .top
        | .insPtr => return .insPtr
        | .ref => do
            let width ← size?
            let inner ← operand opcode levels
            return .ref width inner
        | .size width => do
            let inner ← operand opcode levels
            return .sized width inner
        | _ => throw (.unexpectedToken marker.mnemonic) : Parse Operand) rest := by
  rw [operand, next_bind]
  simp only [Opcode.ofMnemonic?_mnemonic]
  cases marker <;> rfl

theorem operand_tokens {levels : Nat} {written : Operand} (valid : written.Unambiguous)
    (shallow : written.depth ≤ levels) (rest : List Token) :
    operand opcode (levels + 1) (written.tokens ++ rest) = .ok (written, rest) := by
  induction written generalizing levels with
  | literal byte =>
      exact operand_number levels (Operand.unambiguous_literal.mp valid) rest
  | top => exact operand_name levels .top rest
  | insPtr => exact operand_name levels .insPtr rest
  | ref width inner induction =>
      cases levels with
      | zero => cases shallow
      | succ levels =>
          obtain ⟨apart, innerValid⟩ := Operand.unambiguous_ref.mp valid
          have below := induction innerValid (Nat.le_of_succ_le_succ shallow)
          cases width with
          | some width =>
              refine (operand_name (levels + 1) .ref _).trans ?_
              apply bind_ok (size?_size width _)
              apply bind_ok below
              rfl
          | none =>
              refine (operand_name (levels + 1) .ref _).trans ?_
              apply bind_ok (size?_tokens (apart rfl) _)
              apply bind_ok below
              rfl
  | sized width inner induction =>
      cases levels with
      | zero => cases shallow
      | succ levels =>
          have innerValid := Operand.unambiguous_sized.mp valid
          have below := induction innerValid (Nat.le_of_succ_le_succ shallow)
          refine (operand_name (levels + 1) (.size width) _).trans ?_
          apply bind_ok below
          rfl

theorem address_tokens {written : Operand} (valid : written.IsAddress)
    (rest : List Token) :
    address opcode (written.tokens ++ rest) = .ok (written, rest) :=
  operand_tokens valid.toUnambiguous (Nat.le_of_lt_succ valid.shallow) rest

theorem byteOperand_name {marker : Opcode} (unsized : marker.width? = none)
    (rest : List Token) :
    byteOperand opcode (.name marker.mnemonic :: rest) =
      address opcode (.name marker.mnemonic :: rest) := by
  simp [byteOperand, unsized]

theorem byteOperand_tokens {written : Operand} (valid : written.IsByteOperand)
    (rest : List Token) :
    byteOperand opcode (written.tokens ++ rest) = .ok (written, rest) := by
  cases written with
  | literal byte =>
      have symbol := Symbol.ofValueByte_eq_literal_iff.mpr ⟨rfl, valid⟩
      change (literal Symbol.ofValueByte byte.toNat >>= fun read => pure (read, rest)) = _
      rw [literal_toNat symbol]
      rfl
  | top =>
      have read : address opcode (Operand.top.tokens ++ rest) = .ok (.top, rest) :=
        address_tokens (by decide) rest
      exact (byteOperand_name rfl rest).trans read
  | insPtr =>
      have read : address opcode (Operand.insPtr.tokens ++ rest) =
          .ok (.insPtr, rest) := address_tokens (by decide) rest
      exact (byteOperand_name rfl rest).trans read
  | ref width inner =>
      have read : address opcode ((Operand.ref width inner).tokens ++ rest) =
          .ok (.ref width inner, rest) := address_tokens valid rest
      cases width with
      | none => exact (byteOperand_name rfl _).trans read
      | some width => exact (byteOperand_name rfl _).trans read
  | sized width inner => cases valid

theorem pushed_tokens {written : Operand} (valid : written.IsPushed)
    (rest : List Token) :
    pushed opcode (written.tokens ++ rest) = .ok (written, rest) := by
  cases written with
  | literal found =>
      refine (next_bind _ _ _).trans ?_
      dsimp only
      apply bind_ok (lift_of_ok (byte_toNat found))
      rw [if_neg valid]
      rfl
  | insPtr => rfl
  | top => cases valid
  | ref width inner => cases valid
  | sized width inner => cases valid

theorem immediate_toNat (value : Value) (rest : List Token) :
    immediate opcode value.width (.number value.toNat :: rest) = .ok (value, rest) := by
  rw [immediate, next_bind]
  simp only [if_pos value.toNat_le_mask, value.ofNat_toNat]
  rfl

theorem body_arguments {written : Instruction} (valid : written.WellFormed)
    (rest : List Token) :
    body written.opcode (written.arguments ++ rest) = .ok (written, rest) := by
  rw [Instruction.arguments_append]
  cases written with
  | move destination source =>
      apply bind_ok (address_tokens valid.1 _)
      apply bind_ok (address_tokens valid.2 _)
      rfl
  | load destination value =>
      apply bind_ok (address_tokens valid _)
      apply bind_ok (immediate_toNat value _)
      rfl
  | jump target =>
      apply bind_ok (address_tokens valid _)
      rfl
  | push source =>
      apply bind_ok (pushed_tokens valid _)
      rfl
  | pop => rfl
  | arithmetic op left right =>
      apply bind_ok (byteOperand_tokens valid.1 _)
      apply bind_ok (byteOperand_tokens valid.2 _)
      rfl
  | compare condition left right =>
      apply bind_ok (byteOperand_tokens valid.1 _)
      apply bind_ok (byteOperand_tokens valid.2 _)
      rfl
  | branch condition left right target =>
      apply bind_ok (byteOperand_tokens valid.1 _)
      apply bind_ok (byteOperand_tokens valid.2.1 _)
      apply bind_ok (address_tokens valid.2.2 _)
      rfl
  | bitwise op destination source =>
      apply bind_ok (address_tokens valid.1 _)
      apply bind_ok (byteOperand_tokens valid.2 _)
      rfl
  | invert destination =>
      apply bind_ok (address_tokens valid _)
      rfl

end Parse

namespace Statement

/-- What a line of text can say: an instruction that can be told from its bytes,
or at least one raw byte. -/
def Printable : Statement → Prop
  | instruction written => written.WellFormed
  | data bytes => bytes ≠ []

theorem mnemonic_ne_dataMnemonic (opcode : Opcode) :
    opcode.mnemonic ≠ dataMnemonic := by
  have table : ∀ entry ∈ Opcode.all, entry.mnemonic ≠ dataMnemonic := by decide
  exact table opcode opcode.mem_all

theorem instructionOfTokens_arguments {written : Instruction}
    (valid : written.WellFormed) :
    instructionOfTokens written.opcode written.arguments =
      .ok (.instruction written) := by
  have read := Parse.body_arguments valid []
  rw [List.append_nil] at read
  rw [instructionOfTokens, read]
  rfl

theorem mapM_datum (bytes : List Byte) :
    (bytes.map fun byte => Token.number byte.toNat).mapM datum = .ok bytes := by
  induction bytes with
  | nil => rfl
  | cons byte bytes induction =>
      rw [List.map_cons, List.mapM_cons, datum, Parse.byte_toNat, induction]
      rfl

theorem dataOfTokens_bytes {bytes : List Byte} (nonempty : bytes ≠ []) :
    dataOfTokens (bytes.map fun byte => .number byte.toNat) = .ok (.data bytes) := by
  have read := mapM_datum bytes
  obtain ⟨byte, bytes, rfl⟩ := List.exists_cons_of_ne_nil nonempty
  rw [List.map_cons] at read ⊢
  rw [dataOfTokens, read]
  · rfl
  · nofun

theorem ofTokens_tokens {statement : Statement} (printable : statement.Printable) :
    ofTokens statement.tokens = .ok (some statement) := by
  cases statement with
  | instruction written =>
      rw [tokens, ofTokens, if_neg (mnemonic_ne_dataMnemonic _)]
      simp only [Opcode.ofMnemonic?_mnemonic, instructionOfTokens_arguments printable]
      rfl
  | data bytes =>
      rw [tokens, ofTokens, if_pos rfl, dataOfTokens_bytes printable]
      rfl

end Statement

end Assembly

end ByteMachine
