import ByteMachine.Proofs.Assembly.Accepted
import ByteMachine.Proofs.Assembly.Lossless
import ByteMachine.Proofs.Encoding.Tape

namespace ByteMachine

/-! The listing of an assembled text is that text in canonical form. Each line that states an
instruction is written as the instruction is, and the other lines are left out. -/

theorem Text.fields_eq_nil_iff {α : Type} {isSeparator : α → Bool} {items : List α} :
    fields isSeparator items = [] ↔ items.all isSeparator = true := by
  induction items with
  | nil => simp [fields]
  | cons item items induction =>
      by_cases parts : isSeparator item = true
      · simpa [fields, addItem, parts] using induction
      · obtain ⟨piece, pieces, shape⟩ :=
          List.exists_cons_of_ne_nil (split_ne_nil isSeparator items)
        simp [fields, addItem, parts, shape]

namespace Assembly

/-- Nothing but separators stands in front of the comment. -/
def isBlank (line : List Char) : Bool :=
  (code line).all isSeparator

/-- The first word of the line is the one that announces data, in any case. -/
def isDataLine (line : List Char) : Bool :=
  match words line with
  | [] => false
  | word :: _ => String.ofList (Text.upper word) == Statement.dataMnemonic

def States (line : List Char) (statement : Statement) : Prop :=
  Statement.ofLine line = .ok (some statement)

variable {line : List Char}

theorem words_eq_nil_iff : words line = [] ↔ isBlank line = true :=
  Text.fields_eq_nil_iff

theorem Token.ofWord_eq_name {word : List Char} {name : String}
    (read : ofWord word = .ok (.name name)) : name = String.ofList (Text.upper word) := by
  have numeral (base : Nat) (digits : List Char) :
      ofNumeral word base digits ≠ .ok (.name name) := by
    unfold ofNumeral
    split <;> nofun
  unfold ofWord at read
  split at read
  · exact absurd read (numeral 16 _)
  · exact absurd read (numeral 16 _)
  · split at read
    · exact absurd read (numeral 10 _)
    · cases read
      rfl
  · cases read
    rfl

theorem tokens_of_words_nil (blank : words line = []) : tokens line = .ok [] := by
  rw [tokens, blank]
  rfl

theorem tokens_of_words_cons {word : List Char} {others : List (List Char)}
    {found : List Token} (shape : words line = word :: others)
    (read : tokens line = .ok found) :
    ∃ token rest, found = token :: rest ∧ Token.ofWord word = .ok token := by
  rw [tokens, shape, List.mapM_cons] at read
  obtain ⟨token, first, after⟩ := answer_bind_eq_ok.mp read
  obtain ⟨rest, -, ⟨⟩⟩ := answer_bind_eq_ok.mp after
  exact ⟨token, rest, rfl, first⟩

theorem isDataLine_of_tokens {name : String} {rest : List Token}
    (read : tokens line = .ok (.name name :: rest)) :
    isDataLine line = (name == Statement.dataMnemonic) := by
  cases shape : words line with
  | nil =>
      rw [tokens_of_words_nil shape] at read
      cases read
  | cons word others =>
      obtain ⟨token, tail, same, first⟩ := tokens_of_words_cons shape read
      cases same
      rw [isDataLine, shape, Token.ofWord_eq_name first]

theorem Statement.ofTokens_eq_none {tokens : List Token}
    (read : ofTokens tokens = .ok none) : tokens = [] := by
  match tokens with
  | [] => rfl
  | .number number :: rest => cases read
  | .name name :: rest =>
      rw [ofTokens] at read
      split at read
      · obtain ⟨statement, -, ⟨⟩⟩ := answer_map_eq_ok.mp read
      · split at read
        · obtain ⟨statement, -, ⟨⟩⟩ := answer_map_eq_ok.mp read
        · cases read

theorem isBlank_of_ofLine_none (read : Statement.ofLine line = .ok none) :
    isBlank line = true := by
  obtain ⟨found, lexed, parsed⟩ := answer_bind_eq_ok.mp read
  obtain rfl := Statement.ofTokens_eq_none parsed
  rw [← words_eq_nil_iff]
  cases shape : words line with
  | nil => rfl
  | cons word others => obtain ⟨token, rest, ⟨⟩, -⟩ := tokens_of_words_cons shape lexed

namespace States

variable {statement : Statement}

theorem tokens_eq (stated : States line statement) :
    statement.Printable ∧ tokens line = .ok statement.tokens := by
  obtain ⟨found, lexed, parsed⟩ := answer_bind_eq_ok.mp stated
  obtain ⟨printable, rfl⟩ := Statement.ofTokens_eq_ok_iff.mp parsed
  exact ⟨printable, lexed⟩

theorem isBlank_eq_false (stated : States line statement) : isBlank line = false := by
  rw [Bool.eq_false_iff, ne_eq, ← words_eq_nil_iff]
  intro blank
  have lexed := stated.tokens_eq.2
  rw [tokens_of_words_nil blank] at lexed
  cases statement <;> cases lexed

/-- Only a line of data states data. -/
theorem exists_instruction (stated : States line statement) (plain : isDataLine line = false) :
    ∃ written : Instruction, written.WellFormed ∧ statement = .instruction written := by
  obtain ⟨printable, lexed⟩ := stated.tokens_eq
  cases statement with
  | instruction written => exact ⟨written, printable, rfl⟩
  | data bytes =>
      rw [isDataLine_of_tokens lexed, beq_self_eq_true] at plain
      cases plain

end States

theorem assembleLine_eq_ok {bytes : List Byte} (assembled : assembleLine line = .ok bytes) :
    isBlank line = true ∧ bytes = [] ∨
      ∃ statement, States line statement ∧ bytes = statement.encode := by
  obtain ⟨statement?, said, ⟨⟩⟩ := answer_bind_eq_ok.mp assembled
  cases statement? with
  | none => exact .inl ⟨isBlank_of_ofLine_none said, rfl⟩
  | some statement => exact .inr ⟨statement, said, rfl⟩

/-- The assembled bytes are those of the statements that the lines state, blank lines apart. -/
theorem assembleLines_eq_ok {number : Nat} {lines : List (List Char)} {program : List Byte}
    (assembled : assembleLines number lines = .ok program) :
    ∃ statements, List.Forall₂ States (lines.filter (!isBlank ·)) statements ∧
      program = statements.flatMap Statement.encode := by
  induction lines generalizing number program with
  | nil =>
      cases assembled
      exact ⟨[], .nil, rfl⟩
  | cons line lines induction =>
      obtain ⟨first, here, after⟩ := answer_bind_eq_ok.mp assembled
      obtain ⟨rest, later, ⟨⟩⟩ := answer_bind_eq_ok.mp after
      obtain ⟨statements, said, rfl⟩ := induction later
      rcases assembleLine_eq_ok (answer_mapError_eq_ok.mp here) with
        ⟨blank, rfl⟩ | ⟨statement, stated, rfl⟩
      · refine ⟨statements, ?_, rfl⟩
        rwa [List.filter_cons_of_neg (by simp [blank])]
      · refine ⟨statement :: statements, ?_, rfl⟩
        rw [List.filter_cons_of_pos (by simp [stated.isBlank_eq_false])]
        exact .cons stated said

theorem exists_instructions {lines : List (List Char)} {statements : List Statement}
    (said : List.Forall₂ States lines statements)
    (plain : ∀ line ∈ lines, isDataLine line = false) :
    ∃ instructions : List Instruction, (∀ written ∈ instructions, written.WellFormed) ∧
      statements = instructions.map .instruction := by
  induction said with
  | nil => exact ⟨[], nofun, rfl⟩
  | cons stated said induction =>
      obtain ⟨written, valid, rfl⟩ := stated.exists_instruction (plain _ (by simp))
      obtain ⟨instructions, allValid, rfl⟩ :=
        induction fun line member => plain line (List.mem_cons_of_mem _ member)
      exact ⟨written :: instructions, List.forall_mem_cons.mpr ⟨valid, allValid⟩, rfl⟩

end Assembly

namespace Listing

/-- Each instruction is read back where it was written: what follows it is never taken for
a part of it. -/
theorem ofBytes_encode {instructions : List Instruction}
    (valid : ∀ written ∈ instructions, written.WellFormed) :
    ofBytes (instructions.flatMap Instruction.encode) = instructions.map .instruction := by
  induction instructions with
  | nil => rw [List.flatMap_nil, ofBytes, List.map_nil]
  | cons written instructions induction =>
      obtain ⟨first, others⟩ := List.forall_mem_cons.mp valid
      rw [List.flatMap_cons, ofBytes_of_read (Decode.instruction_encode first _),
        induction others, List.map_cons]

theorem count_text (listing : Listing) :
    listing.text.toList.count '\n' = listing.length := by
  induction listing with
  | nil => rfl
  | cons statement listing induction =>
      have single : statement.text.toList.count '\n' = 0 :=
        List.count_eq_zero_of_not_mem fun member =>
          (statement.tokens_text.2 _ member).1 rfl
      rw [text_cons, String.toList_append, String.toList_append, List.count_append,
        List.count_append, single, induction, List.length_cons]
      change 0 + 1 + listing.length = listing.length + 1
      omega

end Listing

namespace Assembly

theorem isDataLine_text (written : Instruction) :
    isDataLine written.text.toList = false := by
  have lexed : tokens written.text.toList = .ok (Statement.instruction written).tokens :=
    (Statement.instruction written).tokens_text.1
  rw [isDataLine_of_tokens lexed]
  simpa using Statement.mnemonic_ne_dataMnemonic written.opcode

theorem isDataLine_of_mem_listing {instructions : List Instruction} {line : List Char}
    (member : line ∈ lines (Listing.text (instructions.map .instruction))) :
    isDataLine line = false := by
  rw [Listing.lines_text, List.map_map] at member
  obtain ⟨written, -, rfl⟩ := List.mem_map.mp member
  exact isDataLine_text written

/-- Listing what was assembled from a text without data gives the texts of the instructions
that its lines state, blank lines apart, each on a line of its own. -/
theorem listing_assembled {text : String} {program : List Byte}
    (assembled : assemble text = .ok program)
    (plain : ∀ line ∈ lines text, isDataLine line = false) :
    ∃ instructions : List Instruction,
      List.Forall₂ (fun line written => States line (.instruction written))
        ((lines text).filter (!isBlank ·)) instructions ∧
      Tape.decodeAll { bytes := program } = .ok instructions ∧
      Tape.listing { bytes := program } =
        String.join (instructions.map fun written => written.text ++ "\n") ∧
      (∀ line ∈ lines (Tape.listing { bytes := program }), isDataLine line = false) ∧
      (Tape.listing { bytes := program }).toList.count '\n' = instructions.length := by
  obtain ⟨statements, said, rfl⟩ := assembleLines_eq_ok assembled
  obtain ⟨instructions, valid, rfl⟩ :=
    exists_instructions said fun line member => plain line (List.mem_of_mem_filter member)
  have encoded : (instructions.map Statement.instruction).flatMap Statement.encode =
      instructions.flatMap Instruction.encode := by
    rw [List.flatMap_map]
    rfl
  have listed : Tape.listing
      { bytes := (instructions.map Statement.instruction).flatMap Statement.encode } =
      Listing.text (instructions.map Statement.instruction) := by
    rw [Tape.listing_eq, encoded, Listing.ofBytes_encode valid]
  rw [listed]
  refine ⟨instructions, List.forall₂_map_right_iff.mp said, ?_, ?_, ?_, ?_⟩
  · exact Tape.decodeAll_eq_ok_iff.mpr ⟨valid, encoded⟩
  · rw [Listing.text, List.map_map]
    rfl
  · exact fun line member => isDataLine_of_mem_listing member
  · rw [Listing.count_text, List.length_map]

/-- A comment, an instruction in free form, a line of separators, and an instruction whose
operand looks like the start of another one. -/
theorem listing_assembled_free_form :
    let text := "; sum\n add top, 3 ; TOP + 3\n ,\t\nPush 160"
    let program : List Byte := [0xa0, 0xb0, 0x03, 0xfd, 0xa0]
    assemble text = .ok program ∧
      (∀ line ∈ lines text, isDataLine line = false) ∧
      ∃ instructions : List Instruction,
        List.Forall₂ (fun line written => States line (.instruction written))
          [" add top, 3 ; TOP + 3".toList, "Push 160".toList] instructions ∧
        Tape.decodeAll { bytes := program } = .ok instructions ∧
        Tape.listing { bytes := program } =
          String.join (instructions.map fun written => written.text ++ "\n") ∧
        (∀ line ∈ lines (Tape.listing { bytes := program }), isDataLine line = false) ∧
        (Tape.listing { bytes := program }).toList.count '\n' = instructions.length := by
  intro text program
  have assembled : assemble text = .ok program := by decide +kernel
  have plain : ∀ line ∈ lines text, isDataLine line = false := by decide +kernel
  obtain ⟨instructions, said, canonical⟩ := listing_assembled assembled plain
  have kept : (lines text).filter (!isBlank ·) =
      [" add top, 3 ; TOP + 3".toList, "Push 160".toList] := by decide +kernel
  exact ⟨assembled, plain, instructions, kept ▸ said, canonical⟩

end Assembly

end ByteMachine
