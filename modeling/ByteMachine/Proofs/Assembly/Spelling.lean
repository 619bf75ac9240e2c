import ByteMachine.Assembly.Assemble
import ByteMachine.Proofs.Value

namespace ByteMachine

/-! Written words are read as the tokens that they stand for. -/

namespace Text

theorem digit?_digitChar {number : Nat} (small : number < 16) :
    digit? 16 number.digitChar = some number := by
  have table : ∀ value ∈ List.range 16, digit? 16 value.digitChar = some value := by
    decide
  exact table number (List.mem_range.mpr small)

theorem digitChar_ne_plus {number : Nat} (small : number < 16) :
    number.digitChar ≠ '+' := by
  intro plus
  have found := digit?_digitChar small
  rw [plus] at found
  cases found

theorem foldlM_digits (bytes : List Byte) (start : Nat) :
    (bytes.flatMap Byte.digits).foldlM
        (fun number char => (digit? 16 char).map (number * 16 + ·)) start =
      some (bytes.foldl (fun total byte => total * 256 + byte.toNat) start) := by
  induction bytes generalizing start with
  | nil => rfl
  | cons byte bytes induction =>
      have small := byte.toNat_lt
      have high := digit?_digitChar (show byte.toNat / 16 < 16 by omega)
      have low := digit?_digitChar (show byte.toNat % 16 < 16 by omega)
      -- Two digits make a byte, so numbers in base 16 and 256 grow alike.
      have halves : (start * 16 + byte.toNat / 16) * 16 + byte.toNat % 16 =
          start * 256 + byte.toNat := by omega
      simp [Byte.digits, high, low, halves, induction]

theorem numeral?_digits {bytes : List Byte} (nonempty : bytes ≠ [])
    (fits : ofBigEndian bytes < UInt64.size) :
    numeral? 16 (bytes.flatMap Byte.digits) = some (ofBigEndian bytes) := by
  obtain ⟨byte, rest, rfl⟩ := List.exists_cons_of_ne_nil nonempty
  have small := byte.toNat_lt
  have plus := digitChar_ne_plus (show byte.toNat / 16 < 16 by omega)
  have number : digits? 16 ((byte :: rest).flatMap Byte.digits) =
      some (ofBigEndian (byte :: rest)) := foldlM_digits (byte :: rest) 0
  unfold numeral?
  split
  · rename_i first
    exact absurd (List.cons.inj first).1 plus
  · dsimp only
    rw [number]
    simp [Byte.digits, Option.filter, fits]

variable {α : Type}

theorem fields_intercalate {isSeparator : α → Bool} {separator : α}
    (parts : isSeparator separator = true) {pieces : List (List α)}
    (plain : ∀ piece ∈ pieces, piece ≠ [] ∧ ∀ item ∈ piece, isSeparator item = false) :
    fields isSeparator ([separator].intercalate pieces) = pieces := by
  have single : ∀ piece ∈ pieces, fields isSeparator piece = [piece] := by
    intro piece member
    obtain ⟨nonempty, inside⟩ := plain piece member
    simp [fields, split_of_forall inside, nonempty]
  induction pieces with
  | nil => rfl
  | cons piece pieces induction =>
      have first := single piece (by simp)
      cases pieces with
      | nil => simpa using first
      | cons next pieces =>
          have later := induction
            (fun other member => plain other (by simp [member]))
            (fun other member => single other (by simp [member]))
          unfold fields at first later ⊢
          rw [List.intercalate_cons_cons, List.append_assoc, List.singleton_append,
            split_append_cons parts, List.filter_append, first, later]
          rfl

theorem mem_intercalate {separator item : α} {pieces : List (List α)}
    (member : item ∈ [separator].intercalate pieces) :
    item = separator ∨ ∃ piece ∈ pieces, item ∈ piece := by
  induction pieces with
  | nil => cases member
  | cons piece pieces induction =>
      cases pieces with
      | nil => exact .inr ⟨piece, by simp, by simpa using member⟩
      | cons next pieces =>
          rw [List.intercalate_cons_cons] at member
          simp only [List.append_assoc, List.singleton_append, List.mem_append, List.mem_cons] at member
          rcases member with member | rfl | member
          · exact .inr ⟨piece, by simp, member⟩
          · exact .inl rfl
          · rcases induction member with same | ⟨other, found, member⟩
            · exact .inl same
            · exact .inr ⟨other, by simp [found], member⟩

end Text

namespace Assembly

/-- The word is one of a line's words, and read as the token. -/
structure Spells (word : String) (token : Token) : Prop where
  nonempty : word.toList ≠ []
  plain : ∀ char ∈ word.toList, isSeparator char = false ∧ char ≠ ';'
  read : Token.ofWord word.toList = .ok token

theorem spells_mnemonic (opcode : Opcode) :
    Spells opcode.mnemonic (.name opcode.mnemonic) where
  nonempty := by
    have table : ∀ entry ∈ Opcode.all, entry.mnemonic.toList ≠ [] := by decide +kernel
    exact table opcode opcode.mem_all
  plain := by
    have table : ∀ entry ∈ Opcode.all, entry.mnemonic.toList.all
        (fun char => !isSeparator char && char != ';') = true := by decide +kernel
    simpa using table opcode opcode.mem_all
  read := by
    cases opcode with
    | load width => cases width <;> rfl
    | size width => cases width <;> rfl
    | arithmetic op => cases op <;> rfl
    | bitwise op => cases op <;> rfl
    | compare condition => cases condition <;> rfl
    | branch condition => cases condition <;> rfl
    | _ => rfl

theorem plain_digits (byte : Byte) :
    ∀ char ∈ byte.digits, isSeparator char = false ∧ char ≠ ';' := by
  have table : ∀ number ∈ List.range 16,
      isSeparator number.digitChar = false ∧ number.digitChar ≠ ';' := by decide +kernel
  have small := byte.toNat_lt
  intro char member
  simp only [Byte.digits, List.mem_cons, List.not_mem_nil, or_false] at member
  rcases member with rfl | rfl
  · exact table _ (List.mem_range.mpr (by omega))
  · exact table _ (List.mem_range.mpr (by omega))

theorem spells_value (value : Value) : Spells value.text (.number value.toNat) := by
  have written : value.text.toList = '0' :: 'x' :: value.bytes.flatMap Byte.digits := by
    simp [Packed.text]
  refine ⟨by simp [written], ?_, ?_⟩
  · rw [written]
    intro char member
    simp only [List.mem_cons, List.mem_flatMap] at member
    rcases member with rfl | rfl | ⟨byte, -, member⟩
    · decide
    · decide
    · exact plain_digits byte char member
  · have nonempty : value.bytes ≠ [] := by
      apply List.ne_nil_of_length_pos
      rw [value.length_bytes]
      exact value.width.size_pos
    have fits : ofBigEndian value.bytes < UInt64.size :=
      Nat.lt_of_le_of_lt value.toNat_le_mask value.width.mask.toNat_lt
    rw [written, Token.ofWord, Token.ofNumeral, Text.numeral?_digits nonempty fits]
    rfl

theorem spells_byte (byte : Byte) : Spells byte.text (.number byte.toNat) := by
  have spelled := spells_value (.ofByte byte)
  have sameText : (Value.ofByte byte).text = byte.text := by
    simp [Packed.text, Byte.text, Byte.hex]
  have sameNumber : (Value.ofByte byte).toNat = byte.toNat := by
    simp [Packed.toNat, ofBigEndian]
  rwa [sameText, sameNumber] at spelled

theorem spells_dataMnemonic :
    Spells Statement.dataMnemonic (.name Statement.dataMnemonic) where
  nonempty := by decide
  plain := by
    have plain : Statement.dataMnemonic.toList.all
        (fun char => !isSeparator char && char != ';') = true := by decide +kernel
    simpa using plain
  read := rfl

theorem exists_spells {words : List String} {tokens : List Token}
    (spelled : List.Forall₂ Spells words tokens) {word : String}
    (member : word ∈ words) : ∃ token, Spells word token := by
  induction spelled with
  | nil => cases member
  | cons first rest induction =>
      rcases List.mem_cons.mp member with rfl | member
      · exact ⟨_, first⟩
      · exact induction member

/-- A line of words parted by blanks has no comment and no end of line in it. -/
theorem ne_of_mem_intercalate {words : List String} {tokens : List Token}
    (spelled : List.Forall₂ Spells words tokens) :
    ∀ char ∈ (String.intercalate " " words).toList, char ≠ ';' ∧ char ≠ '\n' ∧ char ≠ '\r' := by
  rw [String.toList_intercalate]
  intro char member
  rcases Text.mem_intercalate member with rfl | ⟨piece, found, member⟩
  · decide
  · obtain ⟨word, inside, rfl⟩ := List.mem_map.mp found
    obtain ⟨token, spells⟩ := exists_spells spelled inside
    obtain ⟨part, comment⟩ := spells.plain char member
    refine ⟨comment, ?_, ?_⟩
    · rintro rfl
      cases part
    · rintro rfl
      cases part

theorem tokens_intercalate {words : List String} {tokens : List Token}
    (spelled : List.Forall₂ Spells words tokens) :
    Assembly.tokens (String.intercalate " " words).toList = .ok tokens := by
  have whole : code (String.intercalate " " words).toList =
      (String.intercalate " " words).toList := by
    apply List.takeWhile_eq_self_iff.mpr
    intro char member
    simpa using (ne_of_mem_intercalate spelled char member).1
  have pieces : Assembly.words (String.intercalate " " words).toList =
      words.map String.toList := by
    rw [Assembly.words, whole, String.toList_intercalate]
    refine Text.fields_intercalate rfl ?_
    intro piece member
    obtain ⟨word, found, rfl⟩ := List.mem_map.mp member
    obtain ⟨token, spells⟩ := exists_spells spelled found
    exact ⟨spells.nonempty, fun char inside => (spells.plain char inside).1⟩
  rw [Assembly.tokens, pieces]
  clear whole pieces
  induction spelled with
  | nil => rfl
  | cons first rest induction =>
      rw [List.map_cons, List.mapM_cons, first.read, induction]
      rfl

end Assembly

open Assembly

def Operand.tokens : Operand → List Token
  | literal byte => [.number byte.toNat]
  | top => [.name Opcode.top.mnemonic]
  | insPtr => [.name Opcode.insPtr.mnemonic]
  | ref none inner => .name Opcode.ref.mnemonic :: inner.tokens
  | ref (some width) inner =>
      .name Opcode.ref.mnemonic :: .name (Opcode.size width).mnemonic :: inner.tokens
  | sized width inner => .name (Opcode.size width).mnemonic :: inner.tokens

def Instruction.arguments (written : Instruction) : List Token :=
  written.operands.flatMap Operand.tokens ++
    (written.immediate?.map fun value => .number value.toNat).toList

def Assembly.Statement.tokens : Statement → List Token
  | instruction written => .name written.opcode.mnemonic :: written.arguments
  | data bytes => .name dataMnemonic :: bytes.map fun byte => .number byte.toNat

theorem Operand.spells_words (operand : Operand) :
    List.Forall₂ Spells operand.words operand.tokens := by
  induction operand with
  | literal byte => exact .cons (spells_byte byte) .nil
  | top => exact .cons (spells_mnemonic .top) .nil
  | insPtr => exact .cons (spells_mnemonic .insPtr) .nil
  | ref width inner induction =>
      cases width with
      | none => exact .cons (spells_mnemonic .ref) induction
      | some width =>
          exact .cons (spells_mnemonic .ref)
            (.cons (spells_mnemonic (.size width)) induction)
  | sized width inner induction =>
      exact .cons (spells_mnemonic (.size width)) induction

theorem Instruction.spells_words (written : Instruction) :
    List.Forall₂ Spells written.words
      (.name written.opcode.mnemonic :: written.arguments) := by
  have operands : ∀ list : List Operand,
      List.Forall₂ Spells (list.flatMap Operand.words) (list.flatMap Operand.tokens) := by
    intro list
    induction list with
    | nil => exact .nil
    | cons operand list induction =>
        exact List.rel_append operand.spells_words induction
  have immediate : ∀ found : Option Value,
      List.Forall₂ Spells (found.map (·.text)).toList
        (found.map fun value => Token.number value.toNat).toList := by
    intro found
    cases found with
    | none => exact .nil
    | some value => exact .cons (spells_value value) .nil
  exact .cons (spells_mnemonic _) (List.rel_append (operands _) (immediate _))

namespace Assembly.Statement

theorem spells_bytes (bytes : List Byte) :
    List.Forall₂ Spells (bytes.map Byte.text)
      (bytes.map fun byte => Token.number byte.toNat) := by
  induction bytes with
  | nil => exact .nil
  | cons byte bytes induction => exact .cons (spells_byte byte) induction

theorem tokens_text (statement : Statement) :
    Assembly.tokens statement.text.toList = .ok statement.tokens ∧
      ∀ char ∈ statement.text.toList, char ≠ '\n' ∧ char ≠ '\r' := by
  have line {words : List String} {tokens : List Token}
      (spelled : List.Forall₂ Spells words tokens) :
      Assembly.tokens (String.intercalate " " words).toList = .ok tokens ∧
        ∀ char ∈ (String.intercalate " " words).toList, char ≠ '\n' ∧ char ≠ '\r' :=
    ⟨tokens_intercalate spelled,
      fun char member => (ne_of_mem_intercalate spelled char member).2⟩
  cases statement with
  | instruction written => exact line written.spells_words
  | data bytes => exact line (.cons spells_dataMnemonic (spells_bytes bytes))

end Assembly.Statement

end ByteMachine
