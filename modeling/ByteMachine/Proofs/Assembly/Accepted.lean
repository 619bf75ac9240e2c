import ByteMachine.Proofs.Answer
import ByteMachine.Proofs.Assembly.Parse

namespace ByteMachine

/-! Readers of tokens accept the tokens of well-formed statements and no others. -/

namespace Assembly

namespace Parse

variable {α : Type} {tokens rest : List Token} {opcode : Opcode} {parsed : Operand}

theorem next_eq_ok {token : Token} (read : next opcode tokens = .ok (token, rest)) :
    tokens = token :: rest := by
  cases tokens with
  | nil => cases read
  | cons first tail => cases read; rfl

theorem lift_eq_ok {answer : Except Cause α} {found : α}
    (read : (liftM answer : Parse α) tokens = .ok (found, rest)) :
    answer = .ok found ∧ tokens = rest := by
  cases answer with
  | error cause => cases read
  | ok result => cases read; exact ⟨rfl, rfl⟩

theorem byte_eq_ok {number : Nat} {found : Byte} (read : byte number = .ok found) :
    number = found.toNat := by
  unfold byte at read
  split at read
  · rename_i small
    cases read
    simp [Nat.mod_eq_of_lt small]
  · cases read

theorem literal_eq_ok {symbol : Byte → Symbol} {number : Nat}
    (read : literal symbol number = .ok parsed) :
    ∃ byte found, number = byte.toNat ∧ symbol byte = .literal found ∧
      parsed = .literal found := by
  obtain ⟨byte, small, after⟩ := answer_bind_eq_ok.mp read
  split at after
  · rename_i found plain
    cases after
    exact ⟨byte, found, byte_eq_ok small, plain, rfl⟩
  · cases after

theorem size?_eq_ok {width : Option Width} (read : size? tokens = .ok (width, rest)) :
    (∃ found, width = some found ∧
      tokens = .name (Opcode.size found).mnemonic :: rest) ∨
      (width = none ∧ tokens = rest ∧
        ∀ other tail, tokens ≠ .name (Opcode.size other).mnemonic :: tail) := by
  by_cases marked : ∃ found tail, tokens = .name (Opcode.size found).mnemonic :: tail
  · obtain ⟨found, tail, rfl⟩ := marked
    rw [size?_size] at read
    cases read
    exact .inl ⟨found, rfl, rfl⟩
  · have other : ∀ width tail, tokens ≠ .name (Opcode.size width).mnemonic :: tail :=
      fun width tail equal => marked ⟨width, tail, equal⟩
    refine .inr ?_
    unfold size? at read
    split at read
    · rename_i name tail
      split at read
      · rename_i width found
        obtain ⟨marker, entry, sized⟩ := Option.bind_eq_some_iff.mp found
        obtain rfl := Opcode.ofMnemonic?_eq_some_iff.mp entry
        cases marker <;> cases sized
        exact absurd rfl (other width tail)
      · cases read
        exact ⟨rfl, rfl, other⟩
    · cases read
      exact ⟨rfl, rfl, other⟩

/-- An operand is read from its own tokens and no others. -/
theorem operand_eq_ok {levels : Nat}
    (read : operand opcode levels tokens = .ok (parsed, rest)) :
    parsed.Unambiguous ∧ parsed.depth < levels ∧ tokens = parsed.tokens ++ rest := by
  induction levels generalizing tokens rest parsed with
  | zero => cases read
  | succ levels induction =>
      rw [operand] at read
      obtain ⟨token, tail, first, after⟩ := bind_eq_ok.mp read
      obtain rfl := next_eq_ok first
      cases token with
      | number number =>
          obtain ⟨fits, rfl⟩ := lift_eq_ok after
          obtain ⟨byte, found, rfl, symbol, rfl⟩ := literal_eq_ok fits
          obtain ⟨rfl, unknown⟩ := Symbol.ofByte_eq_literal symbol
          exact ⟨by simpa using unknown, by simp [Operand.depth], rfl⟩
      | name name =>
          dsimp only at after
          cases entry : Opcode.ofMnemonic? name with
          | none =>
              simp only [entry] at after
              cases after
          | some marker =>
              obtain rfl := Opcode.ofMnemonic?_eq_some_iff.mp entry
              simp only [entry] at after
              cases marker with
              | top =>
                  cases after
                  exact ⟨by simp, by simp [Operand.depth], rfl⟩
              | insPtr =>
                  cases after
                  exact ⟨by simp, by simp [Operand.depth], rfl⟩
              | ref =>
                  obtain ⟨width, left, size, after⟩ := bind_eq_ok.mp after
                  obtain ⟨inner, last, below, ⟨⟩⟩ := bind_eq_ok.mp after
                  obtain ⟨valid, shallow, rfl⟩ := induction below
                  obtain ⟨found, rfl, rfl⟩ | ⟨rfl, rfl, other⟩ := size?_eq_ok size
                  · exact ⟨by simpa using valid, by simpa [Operand.depth] using shallow, rfl⟩
                  · -- A size name directly below would have been taken as the width.
                    have unsized : inner.isSized = false := by
                      cases inner with
                      | sized width inner => exact absurd rfl (other width _)
                      | _ => rfl
                    exact ⟨by simpa [unsized] using valid,
                      by simpa [Operand.depth] using shallow, rfl⟩
              | size width =>
                  obtain ⟨inner, last, below, ⟨⟩⟩ := bind_eq_ok.mp after
                  obtain ⟨valid, shallow, rfl⟩ := induction below
                  exact ⟨by simpa using valid, by simpa [Operand.depth] using shallow, rfl⟩
              | _ => cases after

theorem address_eq_ok (read : address opcode tokens = .ok (parsed, rest)) :
    parsed.IsAddress ∧ tokens = parsed.tokens ++ rest := by
  obtain ⟨valid, shallow, spelled⟩ := operand_eq_ok read
  exact ⟨⟨valid, shallow⟩, spelled⟩

theorem byteOperand_eq_ok (read : byteOperand opcode tokens = .ok (parsed, rest)) :
    parsed.IsByteOperand ∧ tokens = parsed.tokens ++ rest := by
  unfold byteOperand at read
  split at read
  · rename_i number tail
    obtain ⟨operand, found, ⟨⟩⟩ := answer_bind_eq_ok.mp read
    obtain ⟨byte, value, rfl, symbol, rfl⟩ := literal_eq_ok found
    obtain ⟨rfl, plain⟩ := Symbol.ofValueByte_eq_literal_iff.mp symbol
    exact ⟨plain, rfl⟩
  · rename_i name tail
    split at read
    · cases read
    · rename_i unsized
      obtain ⟨valid, spelled⟩ := address_eq_ok read
      refine ⟨?_, spelled⟩
      -- The operand starts with a name, which is no size.
      cases parsed with
      | literal byte => cases (List.cons.inj spelled).1
      | top => trivial
      | insPtr => trivial
      | ref width inner => exact valid
      | sized width inner =>
          obtain ⟨same, -⟩ := List.cons.inj spelled
          cases same
          simp [Opcode.width?] at unsized
  · cases read

theorem pushed_eq_ok (read : pushed opcode tokens = .ok (parsed, rest)) :
    parsed.IsPushed ∧ tokens = parsed.tokens ++ rest := by
  obtain ⟨token, tail, first, after⟩ := bind_eq_ok.mp read
  obtain rfl := next_eq_ok first
  cases token with
  | number number =>
      obtain ⟨found, left, small, chosen⟩ := bind_eq_ok.mp after
      obtain ⟨fits, rfl⟩ := lift_eq_ok small
      obtain rfl := byte_eq_ok fits
      by_cases pointer : found = Opcode.insPtr.code
      · rw [if_pos pointer] at chosen
        cases chosen
      · rw [if_neg pointer] at chosen
        cases chosen
        exact ⟨pointer, rfl⟩
  | name name =>
      dsimp only at after
      cases entry : Opcode.ofMnemonic? name with
      | none =>
          simp only [entry] at after
          cases after
      | some marker =>
          obtain rfl := Opcode.ofMnemonic?_eq_some_iff.mp entry
          simp only [entry] at after
          cases marker with
          | insPtr =>
              cases after
              exact ⟨trivial, rfl⟩
          | _ => cases after

theorem immediate_eq_ok {width : Width} {value : Value}
    (read : immediate opcode width tokens = .ok (value, rest)) :
    value.width = width ∧ tokens = .number value.toNat :: rest := by
  obtain ⟨token, tail, first, after⟩ := bind_eq_ok.mp read
  obtain rfl := next_eq_ok first
  cases token with
  | number number =>
      dsimp only at after
      split at after
      · rename_i fits
        cases after
        rw [Value.toNat_ofNat fits]
        exact ⟨rfl, rfl⟩
      · cases after
  | name name => cases after

theorem body_eq_ok {written : Instruction}
    (read : body opcode tokens = .ok (written, rest)) :
    written.WellFormed ∧ written.opcode = opcode ∧
      tokens = written.arguments ++ rest := by
  rw [Instruction.arguments_append]
  cases opcode with
  | move =>
      obtain ⟨destination, left, first, after⟩ := bind_eq_ok.mp read
      obtain ⟨source, last, second, ⟨⟩⟩ := bind_eq_ok.mp after
      obtain ⟨destinationValid, rfl⟩ := address_eq_ok first
      obtain ⟨sourceValid, rfl⟩ := address_eq_ok second
      exact ⟨⟨destinationValid, sourceValid⟩, rfl, rfl⟩
  | load width =>
      obtain ⟨destination, left, first, after⟩ := bind_eq_ok.mp read
      obtain ⟨value, last, second, ⟨⟩⟩ := bind_eq_ok.mp after
      obtain ⟨destinationValid, rfl⟩ := address_eq_ok first
      obtain ⟨rfl, rfl⟩ := immediate_eq_ok second
      exact ⟨destinationValid, rfl, rfl⟩
  | jump =>
      obtain ⟨target, last, first, ⟨⟩⟩ := bind_eq_ok.mp read
      obtain ⟨targetValid, rfl⟩ := address_eq_ok first
      exact ⟨targetValid, rfl, rfl⟩
  | push =>
      obtain ⟨source, last, first, ⟨⟩⟩ := bind_eq_ok.mp read
      obtain ⟨sourceValid, rfl⟩ := pushed_eq_ok first
      exact ⟨sourceValid, rfl, rfl⟩
  | pop =>
      cases read
      exact ⟨trivial, rfl, rfl⟩
  | arithmetic op =>
      obtain ⟨left, middle, first, after⟩ := bind_eq_ok.mp read
      obtain ⟨right, last, second, ⟨⟩⟩ := bind_eq_ok.mp after
      obtain ⟨leftValid, rfl⟩ := byteOperand_eq_ok first
      obtain ⟨rightValid, rfl⟩ := byteOperand_eq_ok second
      exact ⟨⟨leftValid, rightValid⟩, rfl, rfl⟩
  | compare condition =>
      obtain ⟨left, middle, first, after⟩ := bind_eq_ok.mp read
      obtain ⟨right, last, second, ⟨⟩⟩ := bind_eq_ok.mp after
      obtain ⟨leftValid, rfl⟩ := byteOperand_eq_ok first
      obtain ⟨rightValid, rfl⟩ := byteOperand_eq_ok second
      exact ⟨⟨leftValid, rightValid⟩, rfl, rfl⟩
  | branch condition =>
      obtain ⟨left, middle, first, after⟩ := bind_eq_ok.mp read
      obtain ⟨right, behind, second, after⟩ := bind_eq_ok.mp after
      obtain ⟨target, last, third, ⟨⟩⟩ := bind_eq_ok.mp after
      obtain ⟨leftValid, rfl⟩ := byteOperand_eq_ok first
      obtain ⟨rightValid, rfl⟩ := byteOperand_eq_ok second
      obtain ⟨targetValid, rfl⟩ := address_eq_ok third
      exact ⟨⟨leftValid, rightValid, targetValid⟩, rfl, rfl⟩
  | bitwise op =>
      obtain ⟨destination, left, first, after⟩ := bind_eq_ok.mp read
      obtain ⟨source, last, second, ⟨⟩⟩ := bind_eq_ok.mp after
      obtain ⟨destinationValid, rfl⟩ := address_eq_ok first
      obtain ⟨sourceValid, rfl⟩ := byteOperand_eq_ok second
      exact ⟨⟨destinationValid, sourceValid⟩, rfl, rfl⟩
  | invert =>
      obtain ⟨destination, last, first, ⟨⟩⟩ := bind_eq_ok.mp read
      obtain ⟨destinationValid, rfl⟩ := address_eq_ok first
      exact ⟨destinationValid, rfl, rfl⟩
  | top => cases read
  | ref => cases read
  | insPtr => cases read
  | size width => cases read

end Parse

namespace Statement

theorem instructionOfTokens_eq_ok {opcode : Opcode} {tokens : List Token}
    {statement : Statement} (read : instructionOfTokens opcode tokens = .ok statement) :
    ∃ written : Instruction, statement = .instruction written ∧ written.WellFormed ∧
      written.opcode = opcode ∧ tokens = written.arguments := by
  obtain ⟨⟨written, rest⟩, parsed, after⟩ := answer_bind_eq_ok.mp read
  obtain ⟨valid, same, spelled⟩ := Parse.body_eq_ok parsed
  cases rest with
  | nil =>
      cases after
      exact ⟨written, rfl, valid, same, by simpa using spelled⟩
  | cons token rest => cases after

theorem mapM_datum_eq_ok {tokens : List Token} {bytes : List Byte}
    (read : tokens.mapM datum = .ok bytes) :
    tokens = bytes.map fun byte => .number byte.toNat := by
  induction tokens generalizing bytes with
  | nil =>
      cases read
      rfl
  | cons token tokens induction =>
      rw [List.mapM_cons] at read
      obtain ⟨byte, first, after⟩ := answer_bind_eq_ok.mp read
      obtain ⟨others, later, ⟨⟩⟩ := answer_bind_eq_ok.mp after
      cases token with
      | name name => cases first
      | number number =>
          rw [List.map_cons, ← induction later, ← Parse.byte_eq_ok first]

theorem dataOfTokens_eq_ok {tokens : List Token} {statement : Statement}
    (read : dataOfTokens tokens = .ok statement) :
    ∃ bytes, statement = .data bytes ∧ bytes ≠ [] ∧
      tokens = bytes.map fun byte => .number byte.toNat := by
  cases tokens with
  | nil => cases read
  | cons token tokens =>
      rw [dataOfTokens] at read
      · obtain ⟨bytes, found, ⟨⟩⟩ := answer_bind_eq_ok.mp read
        have spelled := mapM_datum_eq_ok found
        refine ⟨bytes, rfl, ?_, spelled⟩
        rintro rfl
        cases spelled
      · exact List.cons_ne_nil token tokens

/-- A line says a statement exactly if it holds the tokens of that statement. -/
theorem ofTokens_eq_ok_iff {tokens : List Token} {statement : Statement} :
    ofTokens tokens = .ok (some statement) ↔
      statement.Printable ∧ tokens = statement.tokens := by
  constructor
  · intro read
    match tokens with
    | [] => cases read
    | .number number :: rest => cases read
    | .name name :: rest =>
        rw [ofTokens] at read
        split at read
        · rename_i same
          subst same
          obtain ⟨other, found, ⟨⟩⟩ := answer_map_eq_ok.mp read
          obtain ⟨bytes, rfl, nonempty, rfl⟩ := dataOfTokens_eq_ok found
          exact ⟨nonempty, rfl⟩
        · cases entry : Opcode.ofMnemonic? name with
          | none =>
              simp only [entry] at read
              cases read
          | some opcode =>
              simp only [entry] at read
              obtain rfl := Opcode.ofMnemonic?_eq_some_iff.mp entry
              obtain ⟨other, found, ⟨⟩⟩ := answer_map_eq_ok.mp read
              obtain ⟨written, rfl, valid, rfl, rfl⟩ := instructionOfTokens_eq_ok found
              exact ⟨valid, rfl⟩
  · rintro ⟨printable, rfl⟩
    exact ofTokens_tokens printable

end Statement

end Assembly

end ByteMachine
