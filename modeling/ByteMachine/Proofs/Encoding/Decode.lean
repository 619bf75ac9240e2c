import ByteMachine.Proofs.Encoding.WellFormed
import ByteMachine.Tape

namespace ByteMachine

/-! Readers return exactly the well-formed operands and instructions, each from
its own encoding. -/

namespace Symbol

@[simp] theorem ofByte_code (opcode : Opcode) :
    ofByte opcode.code = marker opcode := by
  simp [ofByte]

theorem ofByte_of_unknown {byte : Byte} (unknown : Opcode.ofByte? byte = none) :
    ofByte byte = literal byte := by
  simp [ofByte, unknown]

theorem ofByte_eq_literal {byte found : Byte}
    (symbol : ofByte byte = literal found) :
    found = byte ∧ Opcode.ofByte? byte = none := by
  unfold ofByte at symbol
  cases entry : Opcode.ofByte? byte with
  | some opcode => simp [entry] at symbol
  | none => exact ⟨by simpa [entry] using symbol.symm, rfl⟩

theorem ofByte_eq_marker {byte : Byte} {opcode : Opcode}
    (symbol : ofByte byte = marker opcode) : byte = opcode.code := by
  unfold ofByte at symbol
  cases entry : Opcode.ofByte? byte with
  | none => simp [entry] at symbol
  | some found =>
      have same : found = opcode := by simpa [entry] using symbol
      exact Opcode.ofByte?_eq_some_iff.mp (entry.trans (congrArg some same))

theorem ofValueByte_eq_literal_iff {byte found : Byte} :
    ofValueByte byte = literal found ↔
      found = byte ∧
        byte ∉ [Opcode.top.code, Opcode.ref.code, Opcode.insPtr.code] := by
  unfold ofValueByte
  cases entry : Opcode.ofByte? byte with
  | none =>
      have absent : ∀ opcode : Opcode, byte ≠ opcode.code := by
        intro opcode same
        subst same
        simp at entry
      simp [absent, eq_comm]
  | some opcode =>
      obtain rfl := Opcode.ofByte?_eq_some_iff.mp entry
      have injective : ∀ other : Opcode, opcode.code = other.code ↔ opcode = other :=
        fun other => ⟨Opcode.code_injective, congrArg Opcode.code⟩
      simp only [List.mem_cons, injective, List.not_mem_nil]
      cases opcode <;> simp [Opcode.isValueMarker, eq_comm]

theorem ofValueByte_eq_marker {byte : Byte} {opcode : Opcode}
    (symbol : ofValueByte byte = marker opcode) :
    byte = opcode.code ∧ opcode.isValueMarker = true := by
  unfold ofValueByte at symbol
  cases entry : Opcode.ofByte? byte with
  | none => simp [entry] at symbol
  | some found =>
      by_cases isValue : found.isValueMarker = true
      · have same : found = opcode := by simpa [entry, isValue] using symbol
        subst same
        exact ⟨Opcode.ofByte?_eq_some_iff.mp entry, isValue⟩
      · simp [entry, isValue] at symbol

end Symbol

namespace Decode

variable {α β : Type} {bytes rest : List Byte}

theorem bind_eq_ok {reader : Decode α} {after : α → Decode β} {result : β} :
    (reader >>= after) bytes = .ok result rest ↔
      ∃ first left, reader bytes = .ok first left ∧
        after first left = .ok result rest := by
  change EStateM.bind reader after bytes = _ ↔ _
  unfold EStateM.bind
  cases reader bytes with
  | error error left => simp
  | ok first left =>
      constructor
      · intro read
        exact ⟨first, left, rfl, read⟩
      · intro composed
        obtain ⟨_, _, same, read⟩ := composed
        cases same
        exact read

theorem bind_ok {reader : Decode α} {after : α → Decode β} {first : α} {result : β}
    {left : List Byte} (read : reader bytes = .ok first left)
    (later : after first left = .ok result rest) :
    (reader >>= after) bytes = .ok result rest :=
  bind_eq_ok.mpr ⟨first, left, read, later⟩

theorem next_bind (after : Byte → Decode β) (byte : Byte) (rest : List Byte) :
    (next >>= after) (byte :: rest) = after byte rest := rfl

theorem next_eq_ok {byte : Byte} (read : next bytes = .ok byte rest) :
    bytes = byte :: rest := by
  cases bytes with
  | nil => cases read
  | cons first tail => cases read; rfl

theorem value_bytes (found : Value) (rest : List Byte) :
    value found.width (found.bytes ++ rest) = .ok found rest := by
  have enough : found.width.size ≤ (found.bytes ++ rest).length := by
    simp [found.length_bytes]
  unfold value
  rw [if_pos enough, ← found.length_bytes, List.take_left, List.drop_left,
    Value.decode_bytes]

/-- The bytes of a width always spell a value, so reading one fails only at the end. -/
theorem value_cases (width : Width) (bytes : List Byte) :
    (∃ found rest, found.width = width ∧ bytes = found.bytes ++ rest ∧
      value width bytes = .ok found rest) ∨
      (bytes.length < width.size ∧ value width bytes = .error .unexpectedEnd bytes) := by
  by_cases enough : width.size ≤ bytes.length
  · have whole := List.take_append_drop width.size bytes
    obtain ⟨found, wide, spelled⟩ :=
      Value.exists_bytes_eq (List.length_take_of_le enough)
    have read := value_bytes found (bytes.drop width.size)
    rw [← spelled] at whole
    rw [whole, wide] at read
    exact .inl ⟨found, _, wide, whole.symm, read⟩
  · exact .inr ⟨Nat.lt_of_not_le enough, if_neg enough⟩

theorem value_eq_ok {width : Width} {found : Value}
    (read : value width bytes = .ok found rest) :
    found.width = width ∧ bytes = found.bytes ++ rest := by
  rcases value_cases width bytes with ⟨other, left, same, spelled, found⟩ | ⟨-, failed⟩
  · rw [found] at read
    cases read
    exact ⟨same, spelled⟩
  · rw [failed] at read
    cases read

@[simp] theorem size?_size (width : Width) (rest : List Byte) :
    size? ((Opcode.size width).code :: rest) = .ok (some width) rest := by
  simp [size?]

theorem size?_of_ne
    (other : ∀ width tail, bytes ≠ (Opcode.size width).code :: tail) :
    size? bytes = .ok none bytes := by
  unfold size?
  split
  · rfl
  · rename_i byte tail
    split
    · rename_i width symbol
      exact absurd rfl (Symbol.ofByte_eq_marker symbol ▸ other width tail)
    · rfl

theorem size?_eq_ok {width : Option Width} (read : size? bytes = .ok width rest) :
    (∃ found, width = some found ∧ bytes = (Opcode.size found).code :: rest) ∨
      (width = none ∧ bytes = rest ∧
        ∀ other tail, bytes ≠ (Opcode.size other).code :: tail) := by
  by_cases marked : ∃ found tail, bytes = (Opcode.size found).code :: tail
  · obtain ⟨found, tail, rfl⟩ := marked
    rw [size?_size] at read
    cases read
    exact .inl ⟨found, rfl, rfl⟩
  · have other : ∀ width tail, bytes ≠ (Opcode.size width).code :: tail :=
      fun width tail equal => marked ⟨width, tail, equal⟩
    rw [size?_of_ne other] at read
    cases read
    exact .inr ⟨rfl, rfl, other⟩

end Decode

theorem Operand.encode_append_ne_size {operand : Operand}
    (valid : operand.Unambiguous) (unsized : operand.isSized = false)
    (rest : List Byte) (width : Width) (tail : List Byte) :
    operand.encode ++ rest ≠ (Opcode.size width).code :: tail := by
  have differs : ∀ opcode : Opcode, opcode ≠ .size width →
      opcode.code ≠ (Opcode.size width).code :=
    fun opcode other equal => other (Opcode.code_injective equal)
  cases operand with
  | literal byte =>
      rw [unambiguous_literal] at valid
      intro same
      obtain ⟨first, -⟩ := List.cons.inj same
      subst first
      simp at valid
  | top => simpa [encode] using fun equal => (differs .top nofun equal).elim
  | insPtr => simpa [encode] using fun equal => (differs .insPtr nofun equal).elim
  | ref refWidth inner =>
      cases refWidth <;>
        simpa [encode] using fun equal => (differs .ref nofun equal).elim
  | sized width inner => simp [isSized] at unsized

theorem Instruction.encode_append (written : Instruction) (rest : List Byte) :
    written.encode ++ rest =
      written.opcode.code ::
        written.operands.foldr (fun operand tail => operand.encode ++ tail)
          ((written.immediate?.map (·.bytes)).getD [] ++ rest) := by
  rw [encode, List.cons_append, List.append_assoc, List.flatMap_def,
    List.foldr_append_eq_append]

namespace Decode

variable {bytes rest : List Byte} {decoded : Operand}

theorem operand_eq_ok {levels : Nat} (read : operand levels bytes = .ok decoded rest) :
    decoded.Unambiguous ∧ decoded.depth < levels ∧
      bytes = decoded.encode ++ rest := by
  induction levels generalizing bytes rest decoded with
  | zero => cases read
  | succ levels induction =>
      rw [operand] at read
      obtain ⟨byte, tail, first, after⟩ := bind_eq_ok.mp read
      obtain rfl := next_eq_ok first
      cases symbol : Symbol.ofByte byte with
      | literal found =>
          simp only [symbol] at after
          cases after
          obtain ⟨rfl, unknown⟩ := Symbol.ofByte_eq_literal symbol
          exact ⟨by simpa using unknown, by simp [Operand.depth], rfl⟩
      | marker opcode =>
          simp only [symbol] at after
          obtain rfl := Symbol.ofByte_eq_marker symbol
          cases opcode with
          | top =>
              cases after
              exact ⟨by simp, by simp [Operand.depth], rfl⟩
          | insPtr =>
              cases after
              exact ⟨by simp, by simp [Operand.depth], rfl⟩
          | ref =>
              obtain ⟨width, left, size, after⟩ := bind_eq_ok.mp after
              obtain ⟨inner, last, below, ⟨⟩⟩ := bind_eq_ok.mp after
              obtain ⟨valid, shallow, rfl⟩ := induction below
              obtain ⟨found, rfl, rfl⟩ | ⟨rfl, rfl, other⟩ := size?_eq_ok size
              · exact ⟨by simpa using valid, by simpa [Operand.depth] using shallow, rfl⟩
              · -- A size directly below would have been taken as the width.
                have unsized : inner.isSized = false := by
                  cases inner with
                  | sized width inner => exact absurd rfl (other width _)
                  | _ => rfl
                exact ⟨by simpa [unsized] using valid,
                  by simpa [Operand.depth] using shallow, rfl⟩
          | size width =>
              obtain ⟨inner, last, below, ⟨⟩⟩ := bind_eq_ok.mp after
              obtain ⟨valid, shallow, rfl⟩ := induction below
              exact ⟨by simpa using valid, by simpa [Operand.depth] using shallow, rfl⟩
          | _ => cases after

theorem operand_literal (levels : Nat) {byte : Byte}
    (unknown : Opcode.ofByte? byte = none) (rest : List Byte) :
    operand (levels + 1) (byte :: rest) = .ok (.literal byte) rest := by
  rw [operand, next_bind, Symbol.ofByte_of_unknown unknown]
  rfl

theorem operand_ref (levels : Nat) (rest : List Byte) :
    operand (levels + 1) (Opcode.ref.code :: rest) =
      (do
        let width ← size?
        let inner ← operand levels
        return .ref width inner : Decode Operand) rest := rfl

theorem operand_size (levels : Nat) (width : Width) (rest : List Byte) :
    operand (levels + 1) ((Opcode.size width).code :: rest) =
      (do
        let inner ← operand levels
        return .sized width inner : Decode Operand) rest := by
  cases width <;> rfl

theorem operand_encode {levels : Nat} (valid : decoded.Unambiguous)
    (shallow : decoded.depth ≤ levels) (rest : List Byte) :
    operand (levels + 1) (decoded.encode ++ rest) = .ok decoded rest := by
  induction decoded generalizing levels with
  | literal byte =>
      exact operand_literal levels (Operand.unambiguous_literal.mp valid) rest
  | top => rfl
  | insPtr => rfl
  | ref width inner induction =>
      cases levels with
      | zero => cases shallow
      | succ levels =>
          obtain ⟨apart, innerValid⟩ := Operand.unambiguous_ref.mp valid
          have below := induction innerValid (Nat.le_of_succ_le_succ shallow)
          cases width with
          | some width =>
              refine (operand_ref (levels + 1) _).trans ?_
              apply bind_ok (size?_size width _)
              apply bind_ok below
              rfl
          | none =>
              have other := Operand.encode_append_ne_size innerValid (apart rfl) rest
              refine (operand_ref (levels + 1) _).trans ?_
              apply bind_ok (size?_of_ne other)
              apply bind_ok below
              rfl
  | sized width inner induction =>
      cases levels with
      | zero => cases shallow
      | succ levels =>
          have innerValid := Operand.unambiguous_sized.mp valid
          have below := induction innerValid (Nat.le_of_succ_le_succ shallow)
          refine (operand_size (levels + 1) width _).trans ?_
          apply bind_ok below
          rfl

theorem address_encode (valid : decoded.IsAddress) (rest : List Byte) :
    address (decoded.encode ++ rest) = .ok decoded rest :=
  operand_encode valid.toUnambiguous (Nat.le_of_lt_succ valid.shallow) rest

theorem address_eq_ok_iff :
    address bytes = .ok decoded rest ↔
      decoded.IsAddress ∧ bytes = decoded.encode ++ rest := by
  constructor
  · intro read
    obtain ⟨valid, shallow, encoded⟩ := operand_eq_ok read
    exact ⟨⟨valid, shallow⟩, encoded⟩
  · intro ⟨valid, encoded⟩
    subst encoded
    exact address_encode valid rest

theorem byteOperand_eq_ok (read : byteOperand bytes = .ok decoded rest) :
    decoded.IsByteOperand ∧ bytes = decoded.encode ++ rest := by
  cases bytes with
  | nil => cases read
  | cons byte tail =>
      cases symbol : Symbol.ofValueByte byte with
      | literal found =>
          obtain ⟨rfl, plain⟩ := Symbol.ofValueByte_eq_literal_iff.mp symbol
          simp only [byteOperand, symbol] at read
          cases read
          exact ⟨plain, rfl⟩
      | marker opcode =>
          simp only [byteOperand, symbol] at read
          obtain ⟨valid, encoded⟩ := address_eq_ok_iff.mp read
          refine ⟨?_, encoded⟩
          -- The operand starts with a value marker, so it is no literal and no size.
          obtain ⟨rfl, isValue⟩ := Symbol.ofValueByte_eq_marker symbol
          cases decoded with
          | literal found =>
              obtain ⟨rfl, -⟩ := List.cons.inj encoded
              have unknown := Operand.unambiguous_literal.mp valid.toUnambiguous
              simp at unknown
          | top => trivial
          | insPtr => trivial
          | ref width inner => exact valid
          | sized width inner =>
              have same := Opcode.code_injective (List.cons.inj encoded).1
              subst same
              cases isValue

theorem byteOperand_encode (valid : decoded.IsByteOperand) (rest : List Byte) :
    byteOperand (decoded.encode ++ rest) = .ok decoded rest := by
  cases decoded with
  | literal byte =>
      have symbol := Symbol.ofValueByte_eq_literal_iff.mpr ⟨rfl, valid⟩
      simp [Operand.encode, byteOperand, symbol]
  | top => rfl
  | insPtr => rfl
  | ref width inner =>
      have read : address ((Operand.ref width inner).encode ++ rest) =
          .ok (.ref width inner) rest := address_encode valid rest
      cases width with
      | none => exact read
      | some width => exact read
  | sized width inner => cases valid

theorem byteOperand_eq_ok_iff :
    byteOperand bytes = .ok decoded rest ↔
      decoded.IsByteOperand ∧ bytes = decoded.encode ++ rest := by
  constructor
  · exact byteOperand_eq_ok
  · intro ⟨valid, encoded⟩
    subst encoded
    exact byteOperand_encode valid rest

theorem pushed_eq_ok_iff :
    pushed bytes = .ok decoded rest ↔
      decoded.IsPushed ∧ bytes = decoded.encode ++ rest := by
  constructor
  · intro read
    obtain ⟨byte, tail, first, ⟨⟩⟩ := bind_eq_ok.mp read
    obtain rfl := next_eq_ok first
    by_cases pointer : byte = Opcode.insPtr.code
    · subst pointer
      exact ⟨trivial, rfl⟩
    · simp only [if_neg pointer]
      exact ⟨pointer, rfl⟩
  · intro ⟨valid, encoded⟩
    subst encoded
    cases decoded with
    | literal byte =>
        have read : pushed (byte :: rest) =
            .ok (if byte = Opcode.insPtr.code then .insPtr else .literal byte) rest := rfl
        rw [if_neg valid] at read
        exact read
    | insPtr => rfl
    | top => cases valid
    | ref width inner => cases valid
    | sized width inner => cases valid

/-- A body gives an instruction of its opcode. Its operands are read one after
the other, each in its role. -/
theorem body_eq_ok {opcode : Opcode} {written : Instruction}
    (read : body opcode bytes = .ok written rest) :
    written.WellFormed ∧ opcode.code :: bytes = written.encode ++ rest := by
  rw [Instruction.encode_append]
  cases opcode with
  | move =>
      obtain ⟨destination, left, first, after⟩ := bind_eq_ok.mp read
      obtain ⟨source, last, second, ⟨⟩⟩ := bind_eq_ok.mp after
      obtain ⟨destinationValid, rfl⟩ := address_eq_ok_iff.mp first
      obtain ⟨sourceValid, rfl⟩ := address_eq_ok_iff.mp second
      exact ⟨⟨destinationValid, sourceValid⟩, rfl⟩
  | load width =>
      obtain ⟨destination, left, first, after⟩ := bind_eq_ok.mp read
      obtain ⟨immediate, last, second, ⟨⟩⟩ := bind_eq_ok.mp after
      obtain ⟨destinationValid, rfl⟩ := address_eq_ok_iff.mp first
      obtain ⟨rfl, rfl⟩ := value_eq_ok second
      exact ⟨destinationValid, rfl⟩
  | jump =>
      obtain ⟨target, last, first, ⟨⟩⟩ := bind_eq_ok.mp read
      obtain ⟨targetValid, rfl⟩ := address_eq_ok_iff.mp first
      exact ⟨targetValid, rfl⟩
  | push =>
      obtain ⟨source, last, first, ⟨⟩⟩ := bind_eq_ok.mp read
      obtain ⟨sourceValid, rfl⟩ := pushed_eq_ok_iff.mp first
      exact ⟨sourceValid, rfl⟩
  | pop =>
      cases read
      exact ⟨trivial, rfl⟩
  | arithmetic op =>
      obtain ⟨left, middle, first, after⟩ := bind_eq_ok.mp read
      obtain ⟨right, last, second, ⟨⟩⟩ := bind_eq_ok.mp after
      obtain ⟨leftValid, rfl⟩ := byteOperand_eq_ok_iff.mp first
      obtain ⟨rightValid, rfl⟩ := byteOperand_eq_ok_iff.mp second
      exact ⟨⟨leftValid, rightValid⟩, rfl⟩
  | compare condition =>
      obtain ⟨left, middle, first, after⟩ := bind_eq_ok.mp read
      obtain ⟨right, last, second, ⟨⟩⟩ := bind_eq_ok.mp after
      obtain ⟨leftValid, rfl⟩ := byteOperand_eq_ok_iff.mp first
      obtain ⟨rightValid, rfl⟩ := byteOperand_eq_ok_iff.mp second
      exact ⟨⟨leftValid, rightValid⟩, rfl⟩
  | branch condition =>
      obtain ⟨left, middle, first, after⟩ := bind_eq_ok.mp read
      obtain ⟨right, behind, second, after⟩ := bind_eq_ok.mp after
      obtain ⟨target, last, third, ⟨⟩⟩ := bind_eq_ok.mp after
      obtain ⟨leftValid, rfl⟩ := byteOperand_eq_ok_iff.mp first
      obtain ⟨rightValid, rfl⟩ := byteOperand_eq_ok_iff.mp second
      obtain ⟨targetValid, rfl⟩ := address_eq_ok_iff.mp third
      exact ⟨⟨leftValid, rightValid, targetValid⟩, rfl⟩
  | bitwise op =>
      obtain ⟨destination, left, first, after⟩ := bind_eq_ok.mp read
      obtain ⟨source, last, second, ⟨⟩⟩ := bind_eq_ok.mp after
      obtain ⟨destinationValid, rfl⟩ := address_eq_ok_iff.mp first
      obtain ⟨sourceValid, rfl⟩ := byteOperand_eq_ok_iff.mp second
      exact ⟨⟨destinationValid, sourceValid⟩, rfl⟩
  | invert =>
      obtain ⟨destination, last, first, ⟨⟩⟩ := bind_eq_ok.mp read
      obtain ⟨destinationValid, rfl⟩ := address_eq_ok_iff.mp first
      exact ⟨destinationValid, rfl⟩
  | top => cases read
  | ref => cases read
  | insPtr => cases read
  | size width => cases read

theorem instruction_code (opcode : Opcode) (bytes : List Byte) :
    instruction (opcode.code :: bytes) = body opcode bytes := by
  rw [instruction, next_bind, Symbol.ofByte_code]

theorem instruction_eq_ok {written : Instruction}
    (read : instruction bytes = .ok written rest) :
    written.WellFormed ∧ bytes = written.encode ++ rest := by
  obtain ⟨byte, tail, first, after⟩ := bind_eq_ok.mp read
  obtain rfl := next_eq_ok first
  cases symbol : Symbol.ofByte byte with
  | literal found =>
      simp only [symbol] at after
      cases after
  | marker opcode =>
      simp only [symbol] at after
      obtain rfl := Symbol.ofByte_eq_marker symbol
      exact body_eq_ok after

theorem instruction_encode {written : Instruction} (valid : written.WellFormed)
    (rest : List Byte) :
    instruction (written.encode ++ rest) = .ok written rest := by
  rw [Instruction.encode_append, instruction_code]
  cases written with
  | move destination source =>
      apply bind_ok (address_encode valid.1 _)
      apply bind_ok (address_encode valid.2 _)
      rfl
  | load destination immediate =>
      apply bind_ok (address_encode valid _)
      apply bind_ok (value_bytes immediate _)
      rfl
  | jump target =>
      apply bind_ok (address_encode valid _)
      rfl
  | push source =>
      apply bind_ok (pushed_eq_ok_iff.mpr ⟨valid, rfl⟩)
      rfl
  | pop => rfl
  | arithmetic op left right =>
      apply bind_ok (byteOperand_encode valid.1 _)
      apply bind_ok (byteOperand_encode valid.2 _)
      rfl
  | compare condition left right =>
      apply bind_ok (byteOperand_encode valid.1 _)
      apply bind_ok (byteOperand_encode valid.2 _)
      rfl
  | branch condition left right target =>
      apply bind_ok (byteOperand_encode valid.1 _)
      apply bind_ok (byteOperand_encode valid.2.1 _)
      apply bind_ok (address_encode valid.2.2 _)
      rfl
  | bitwise op destination source =>
      apply bind_ok (address_encode valid.1 _)
      apply bind_ok (byteOperand_encode valid.2 _)
      rfl
  | invert destination =>
      apply bind_ok (address_encode valid _)
      rfl

end Decode

end ByteMachine
