import ByteMachine.Proofs.Assembly.Lossless
import ByteMachine.Proofs.Assembly.Numeral

namespace ByteMachine

/-! Values and lines of data are read back from what is printed of them. -/

/-- The text of a value is a numeral of its number, with two digits for each byte, zeros
included. -/
theorem Value.exists_digits (value : Value) :
    ∃ digits, value.text = "0x" ++ String.ofList digits ∧
      digits.length = 2 * value.width.size ∧ Text.IsNumeral 16 digits value.toNat := by
  have length : (value.bytes.flatMap Byte.digits).length = 2 * value.width.size := by
    simp [List.length_flatMap, value.length_bytes, Nat.mul_comm]
  have nonempty : value.bytes.flatMap Byte.digits ≠ [] := by
    have positive := value.width.size_pos
    apply List.ne_nil_of_length_pos
    omega
  have number : Text.digits? 16 (value.bytes.flatMap Byte.digits) = some value.toNat :=
    Text.foldlM_digits value.bytes 0
  exact ⟨_, rfl, length, (Text.isNumeral_iff (Nat.le_refl 16)).mpr ⟨nonempty, number⟩⟩

theorem Listing.text_concat (listing : Listing) (statement : Assembly.Statement) :
    text (listing ++ [statement]) = listing.text ++ statement.text ++ "\n" := by
  rw [text, List.map_append, String.join_append, String.append_assoc]
  simp [text]

theorem Draft.lines_flush_of_waiting {draft : Draft} (waits : draft.waiting ≠ []) :
    draft.flush.lines = draft.lines ++ [.data draft.waiting] := by
  obtain ⟨byte, bytes, shape⟩ := List.exists_cons_of_ne_nil waits
  rw [lines_flush, shape, Listing.foldr_addByte_cons]

namespace Assembly

theorem tokens_value (value : Value) :
    tokens value.text.toList = .ok [.number value.toNat] := by
  have line := tokens_intercalate (.cons (spells_value value) .nil)
  rwa [String.intercalate_singleton] at line

theorem intercalate_blank (word : String) (words : List String) :
    String.intercalate " " (word :: words) = word ++ String.join (words.map (" " ++ ·)) := by
  induction words generalizing word with
  | nil => simp
  | cons next words induction =>
      rw [String.intercalate_cons_cons, induction, List.map_cons, String.join_cons]
      simp only [String.append_assoc]

/-- A line of data names the bytes one after the other. -/
theorem Statement.text_data (bytes : List Byte) :
    (Statement.data bytes).text =
      "DB" ++ String.join (bytes.map fun byte => " " ++ byte.text) := by
  rw [Statement.text, intercalate_blank, List.map_map]
  rfl

/-- A line of data that ends is one line. -/
theorem Statement.lines_data (bytes : List Byte) :
    lines ((Statement.data bytes).text ++ "\n") = [(Statement.data bytes).text.toList] := by
  have whole := Listing.lines_text [.data bytes]
  rw [Listing.text_cons] at whole
  simpa [Listing.text] using whole

/-- What is printed is read back. The text of a value has two digits for each byte; as a line
it is one token, the number of the value, from which a value of its width is read again. The
line that a draft puts down for the bytes that wait in it says that these bytes are data. -/
theorem printed_read_back :
    (∀ value : Value,
      (∃ digits, value.text = "0x" ++ String.ofList digits ∧
        digits.length = 2 * value.width.size ∧
        Text.IsNumeral 16 digits value.toUInt64.toNat) ∧
      tokens value.text.toList = .ok [.number value.toUInt64.toNat] ∧
      ∀ opcode rest, Parse.immediate opcode value.width
        (.number value.toUInt64.toNat :: rest) = .ok (value, rest)) ∧
    ∀ draft : Draft, draft.waiting ≠ [] →
      let line := "DB" ++ String.join (draft.waiting.map fun byte => " " ++ byte.text)
      let found := Token.name "DB" :: draft.waiting.map fun byte => .number byte.toNat
      draft.flush.lines.text = draft.lines.text ++ line ++ "\n" ∧
        lines (line ++ "\n") = [line.toList] ∧
        tokens line.toList = .ok found ∧
        Statement.ofTokens found = .ok (some (.data draft.waiting)) := by
  constructor
  · intro value
    rw [value.toNat_toUInt64]
    exact ⟨value.exists_digits, tokens_value value, fun opcode => Parse.immediate_toNat value⟩
  · intro draft waits
    have printable : (Statement.data draft.waiting).Printable := waits
    rw [← Statement.text_data, Draft.lines_flush_of_waiting waits, Listing.text_concat]
    exact ⟨rfl, Statement.lines_data draft.waiting, (Statement.data draft.waiting).tokens_text.1,
      Statement.ofTokens_tokens printable⟩

/-- A word with zeros in front of its digits, and bytes that are opcodes elsewhere. -/
theorem printed_read_back_padded :
    let value := Value.word 0x0a
    let draft : Draft := { tape := { bytes := [] }, waiting := [0xff, 0x00] }
    value.text = "0x000a" ∧ tokens "0x000a".toList = .ok [.number 10] ∧
      Parse.immediate (.load .word) .word [.number 10] = .ok (value, []) ∧
      draft.waiting ≠ [] ∧ draft.flush.lines.text = "DB 0xff 0x00\n" ∧
      tokens "DB 0xff 0x00".toList = .ok [.name "DB", .number 255, .number 0] ∧
      Statement.ofTokens [.name "DB", .number 255, .number 0] =
        .ok (some (.data [0xff, 0x00])) := by
  intro value draft
  have text : value.text = "0x000a" := by decide +kernel
  have number : value.toUInt64.toNat = 10 := by decide +kernel
  obtain ⟨values, flushed⟩ := printed_read_back
  obtain ⟨-, lexed, parsed⟩ := values value
  obtain ⟨printed, -, read, stated⟩ := flushed draft (List.cons_ne_nil _ _)
  rw [text, number] at lexed
  rw [number] at parsed
  exact ⟨text, lexed, parsed (.load .word) [], List.cons_ne_nil _ _, printed, read, stated⟩

end Assembly

end ByteMachine
