import ByteMachine.Proofs.Assembly.Canonical
import ByteMachine.Proofs.Assembly.Numeral
import ByteMachine.Proofs.Assembly.Range

namespace ByteMachine

/-! Numbers in a line. Each is written in just the bytes of its place, and one that does not
fit there is refused, never cut. -/

/-- The bytes of items in a row. The size is that of a number in the last of them. -/
inductive Lays {α : Type} (writes : Nat → α → List Byte → Prop) (size : Nat) :
    List α → List Byte → Prop where
  | nil : Lays writes size [] []
  | cons {item : α} {items : List α} {chunk bytes : List Byte}
      (written : writes (slotSize size items) item chunk)
      (later : Lays writes size items bytes) : Lays writes size (item :: items) (chunk ++ bytes)

namespace Lays

variable {α : Type} {writes : Nat → α → List Byte → Prop} {size : Nat} {items others : List α}
  {bytes rest : List Byte}

theorem cons_one {item : α} {chunk : List Byte} (written : writes 1 item chunk)
    (later : Lays writes 1 items bytes) : Lays writes 1 (item :: items) (chunk ++ bytes) :=
  .cons (by rwa [slotSize_one]) later

theorem append (first : Lays writes 1 items bytes) (later : Lays writes size others rest)
    (last : others ≠ [] ∨ size = 1) : Lays writes size (items ++ others) (bytes ++ rest) := by
  induction first with
  | nil => exact later
  | @cons item items chunk bytes written _ induction =>
      have single : slotSize size (items ++ others) = 1 := by
        rcases last with more | rfl
        · exact slotSize_of_ne_nil (by simp [more]) size
        · exact slotSize_one _
      rw [slotSize_one] at written
      rw [List.cons_append, List.append_assoc]
      exact .cons (by rwa [single]) induction

end Lays

namespace Assembly

/-- The bytes of a token in a place for numbers of so many bytes. -/
inductive Token.Writes (size : Nat) : Token → List Byte → Prop where
  | data : Writes size (.name Statement.dataMnemonic) []
  | name (opcode : Opcode) : Writes size (.name opcode.mnemonic) [opcode.code]
  | number {number : Nat} (fits : number < 2 ^ (8 * size)) :
      Writes size (.number number) (bigEndian size number)

/-- The bytes of a word in a place for numbers of so many bytes. -/
inductive Writes (size : Nat) : List Char → List Byte → Prop where
  | data {word : List Char}
      (named : String.ofList (Text.upper word) = Statement.dataMnemonic) : Writes size word []
  | name {word : List Char} {opcode : Opcode}
      (named : String.ofList (Text.upper word) = opcode.mnemonic) :
      Writes size word [opcode.code]
  | number {word : List Char} {number : Nat} (denotes : Denotes word number)
      (fits : number < 2 ^ (8 * size)) : Writes size word (bigEndian size number)

theorem Token.Writes.byte (byte : Byte) : Writes 1 (.number byte.toNat) [byte] := by
  have single : bigEndian 1 byte.toNat = [byte] := by simp [bigEndian]
  rw [← single]
  exact .number byte.toNat_lt

end Assembly

section Encoding

open Assembly

theorem Operand.lays_tokens (operand : Operand) :
    Lays Token.Writes 1 operand.tokens operand.encode := by
  have marked (opcode : Opcode) {tokens : List Token} {bytes : List Byte}
      (later : Lays Token.Writes 1 tokens bytes) :
      Lays Token.Writes 1 (.name opcode.mnemonic :: tokens) (opcode.code :: bytes) :=
    .cons_one (.name opcode) later
  induction operand with
  | literal byte => exact .cons (Token.Writes.byte byte) .nil
  | top => exact marked .top .nil
  | insPtr => exact marked .insPtr .nil
  | ref width inner induction =>
      cases width with
      | none => exact marked .ref induction
      | some width => exact marked .ref (marked (.size width) induction)
  | sized width inner induction => exact marked (.size width) induction

theorem Instruction.lays_arguments (written : Instruction) :
    Lays Token.Writes written.opcode.numberSize written.arguments
      (written.operands.flatMap Operand.encode ++
        (written.immediate?.map (·.bytes)).getD []) := by
  have operands (list : List Operand) :
      Lays Token.Writes 1 (list.flatMap Operand.tokens) (list.flatMap Operand.encode) := by
    induction list with
    | nil => exact .nil
    | cons operand list induction => exact operand.lays_tokens.append induction (.inr rfl)
  unfold arguments
  cases written with
  | load destination value =>
      refine (operands _).append ?_ (.inl (List.cons_ne_nil _ _))
      have lays : Lays Token.Writes value.width.size [.number value.toNat]
          (bigEndian value.width.size value.toNat ++ []) :=
        .cons (.number value.toNat_lt) .nil
      rw [List.append_nil, value.bigEndian_toNat] at lays
      exact lays
  | _ => exact (operands _).append .nil (.inr rfl)

end Encoding

namespace Assembly

/-- The number of bytes of a number in the last of the words. The first tells it. -/
def lastSize : List (List Char) → Nat
  | [] => 1
  | first :: _ => Statement.numberSize (String.ofList (Text.upper first))

/-- Behind these words a line may have a number, of so many bytes. -/
def TakesNumber (before : List (List Char)) (size : Nat) : Prop :=
  ∃ line bytes word following number, assembleLine line = .ok bytes ∧
    words line = before ++ word :: following ∧ Denotes word number ∧
    size = slotSize (lastSize before) following

variable {line word : List Char} {before following list : List (List Char)} {number size : Nat}

section Lexed

variable {found rest : List Token}

theorem lastSize_of_lexed {name : String}
    (lexed : list.mapM Token.ofWord = .ok (.name name :: rest)) :
    lastSize list = Statement.numberSize name := by
  cases list with
  | nil => cases lexed
  | cons word list =>
      obtain ⟨token, others, ⟨⟩, read, -⟩ := answer_mapM_cons_eq_ok.mp lexed
      rw [lastSize, Token.ofWord_eq_name read]

theorem slotSize_of_lexed (lexed : list.mapM Token.ofWord = .ok found) (last : Nat) :
    slotSize last list = slotSize last found := by
  cases list with
  | nil =>
      cases lexed
      rfl
  | cons word list =>
      obtain ⟨token, others, rfl, -, -⟩ := answer_mapM_cons_eq_ok.mp lexed
      rfl

theorem Token.Writes.of_lexed {token : Token} {chunk : List Byte}
    (writes : Token.Writes size token chunk) (read : Token.ofWord word = .ok token) :
    Assembly.Writes size word chunk := by
  cases writes with
  | data => exact .data (Token.ofWord_eq_name read).symm
  | name opcode => exact .name (Token.ofWord_eq_name read).symm
  | number fits => exact .number (Token.ofWord_eq_number_iff.mp read).1 fits

theorem lays_of_lexed {bytes : List Byte} (lays : Lays Token.Writes size found bytes)
    (lexed : list.mapM Token.ofWord = .ok found) : Lays Writes size list bytes := by
  induction lays generalizing list with
  | nil =>
      cases list with
      | nil => exact .nil
      | cons word list => obtain ⟨token, others, ⟨⟩, -, -⟩ := answer_mapM_cons_eq_ok.mp lexed
  | cons written later induction =>
      cases list with
      | nil => cases lexed
      | cons word list =>
          obtain ⟨token, others, ⟨⟩, read, lexed⟩ := answer_mapM_cons_eq_ok.mp lexed
          rw [← slotSize_of_lexed lexed] at written
          exact .cons (written.of_lexed read) (induction lexed)

theorem exists_lexed (shape : words line = before ++ word :: following)
    (lexed : tokens line = .ok found) :
    ∃ first token rest, found = first ++ token :: rest ∧
      before.mapM Token.ofWord = .ok first ∧ Token.ofWord word = .ok token ∧
      following.mapM Token.ofWord = .ok rest := by
  rw [tokens, shape, List.mapM_append] at lexed
  obtain ⟨first, early, lexedLater⟩ := answer_bind_eq_ok.mp lexed
  obtain ⟨later, lexedHere, ⟨⟩⟩ := answer_bind_eq_ok.mp lexedLater
  obtain ⟨token, rest, rfl, read, late⟩ := answer_mapM_cons_eq_ok.mp lexedHere
  exact ⟨first, token, rest, rfl, early, read, late⟩

end Lexed

/-- The bytes of a line are those of its words, one after the other. -/
theorem lays_of_assembled {bytes : List Byte} (assembled : assembleLine line = .ok bytes) :
    Lays Writes (lastSize (words line)) (words line) bytes := by
  rcases assembleLine_eq_ok assembled with ⟨blank, rfl⟩ | ⟨statement, stated, rfl⟩
  · rw [words_eq_nil_iff.mpr blank]
    exact .nil
  · obtain ⟨-, lexed⟩ := stated.tokens_eq
    cases statement with
    | instruction written =>
        have lays := written.lays_arguments
        rw [lastSize_of_lexed lexed, Statement.numberSize_mnemonic]
        exact lays_of_lexed (.cons (.name _) lays) lexed
    | data bytes =>
        have lays : Lays Token.Writes 1 (bytes.map fun byte => .number byte.toNat) bytes := by
          clear lexed stated assembled
          induction bytes with
          | nil => exact .nil
          | cons byte bytes induction => exact .cons_one (Token.Writes.byte byte) induction
        rw [lastSize_of_lexed lexed, Statement.numberSize_dataMnemonic]
        exact lays_of_lexed (.cons .data lays) lexed

section Refused

theorem assembleLine_of_lexed {found : List Token} (lexed : tokens line = .ok found) :
    assembleLine line =
      (Statement.ofTokens found).map fun statement? =>
        (statement?.map Statement.encode).getD [] := by
  rw [assembleLine, Statement.ofLine, lexed]
  change ((Statement.ofTokens found >>= fun statement? => pure _) : Except Cause (List Byte)) = _
  cases Statement.ofTokens found <;> rfl

theorem assembleLine_of_tokens_error {cause : Cause} (failed : tokens line = .error cause) :
    assembleLine line = .error cause := by
  rw [assembleLine, Statement.ofLine, failed]
  rfl

/-- Words fail to be read for no other reason than a number. -/
theorem malformed_of_tokens_error {cause : Cause} (failed : tokens line = .error cause) :
    ∃ word ∈ words line, Malformed word ∧ cause = .invalidNumber (String.ofList word) := by
  obtain ⟨before, word, after, found, shape, -, unread⟩ := answer_mapM_eq_error_iff.mp failed
  exact ⟨word, by simp [shape], Token.ofWord_eq_error_iff.mp unread⟩

theorem invalidNumber_of_tokens_error {cause : Cause} (failed : tokens line = .error cause) :
    ∃ text, assembleLine line = .error (.invalidNumber text) := by
  obtain ⟨word, -, -, rfl⟩ := malformed_of_tokens_error failed
  exact ⟨_, assembleLine_of_tokens_error failed⟩

theorem invalidNumber_of_malformed (member : word ∈ words line) (malformed : Malformed word) :
    ∃ text, assembleLine line = .error (.invalidNumber text) := by
  cases lexed : tokens line with
  | error cause => exact invalidNumber_of_tokens_error lexed
  | ok found =>
      obtain ⟨before, following, shape⟩ := List.append_of_mem member
      obtain ⟨first, token, rest, -, -, read, -⟩ := exists_lexed shape lexed
      rw [Token.ofWord_eq_error_iff.mpr ⟨malformed, rfl⟩] at read
      cases read

theorem malformed_of_large (denotes : Denotes word number) (large : 2 ^ 64 ≤ number) :
    Malformed word where
  starts := denotes.startsWithDigit_eq
  large _ again := denotes.unique again ▸ large

theorem eq_number_of_lexed {token : Token} (denotes : Denotes word number)
    (read : Token.ofWord word = .ok token) : token = .number number := by
  rcases Nat.lt_or_ge number (2 ^ 64) with small | large
  · rw [Token.ofWord_eq_number_iff.mpr ⟨denotes, small⟩] at read
    cases read
    rfl
  · rw [Token.ofWord_eq_error_iff.mpr ⟨malformed_of_large denotes large, rfl⟩] at read
    cases read

theorem TakesNumber.exists_lexed (takes : TakesNumber before size) :
    ∃ name first small inside statement,
      before.mapM Token.ofWord = .ok (.name name :: first) ∧
      Statement.ofTokens (.name name :: (first ++ .number small :: inside)) =
        .ok (some statement) ∧
      size = slotSize (Statement.numberSize name) inside := by
  obtain ⟨line, bytes, word, following, small, assembled, shape, denotes, rfl⟩ := takes
  rcases assembleLine_eq_ok assembled with ⟨blank, -⟩ | ⟨statement, stated, -⟩
  · rw [words_eq_nil_iff.mpr blank] at shape
    cases before <;> cases shape
  · obtain ⟨printable, lexed⟩ := stated.tokens_eq
    have parsed := Statement.ofTokens_tokens printable
    obtain ⟨first, token, inside, split, early, read, late⟩ := Assembly.exists_lexed shape lexed
    obtain rfl := eq_number_of_lexed denotes read
    rw [split] at parsed
    match first with
    | [] => cases parsed
    | .number other :: first => cases parsed
    | .name name :: first =>
        rw [lastSize_of_lexed early, slotSize_of_lexed late]
        exact ⟨name, first, small, inside, statement, early, parsed, rfl⟩

theorem invalidNumber_of_takesNumber (shape : words line = before ++ word :: following)
    (denotes : Denotes word number) (takes : TakesNumber before size)
    (large : 2 ^ (8 * size) ≤ number) :
    ∃ text, assembleLine line = .error (.invalidNumber text) := by
  cases lexed : tokens line with
  | error cause => exact invalidNumber_of_tokens_error lexed
  | ok found =>
      obtain ⟨name, first, small, inside, statement, early, parsed, rfl⟩ := takes.exists_lexed
      obtain ⟨again, token, rest, rfl, same, read, -⟩ := exists_lexed shape lexed
      rw [early] at same
      cases same
      obtain rfl := eq_number_of_lexed denotes read
      refine ⟨toString number, ?_⟩
      rw [assembleLine_of_lexed lexed, List.cons_append,
        Statement.ofTokens_of_large parsed large rest]
      rfl

end Refused

section Accepted

/-- The words that a line can have. -/
def IsWord (word : List Char) : Prop :=
  word ≠ [] ∧ ∀ char ∈ word, isSeparator char = false ∧ char ≠ ';'

theorem isWord_of_mem_words (member : word ∈ words line) : IsWord word := by
  obtain ⟨found, nonempty⟩ := List.mem_filter.mp member
  refine ⟨by simpa using nonempty, fun char inside => ?_⟩
  obtain ⟨plain, coded⟩ := Text.plain_of_mem_split found inside
  have sign := List.mem_takeWhile_imp coded
  exact ⟨plain, by simpa using sign⟩

theorem words_intercalate (plain : ∀ word ∈ list, IsWord word) :
    words ([' '].intercalate list) = list := by
  have whole : code ([' '].intercalate list) = [' '].intercalate list := by
    apply List.takeWhile_eq_self_iff.mpr
    intro char member
    rcases Text.mem_intercalate member with rfl | ⟨word, found, inside⟩
    · rfl
    · simpa using ((plain word found).2 char inside).2
  rw [words, whole]
  refine Text.fields_intercalate rfl fun word member => ?_
  obtain ⟨nonempty, inside⟩ := plain word member
  exact ⟨nonempty, fun char found => (inside char found).1⟩

theorem mapM_ofWord_zeros (count : Nat) :
    (List.replicate count ['0']).mapM Token.ofWord = .ok (Parse.zeros count) := by
  induction count with
  | zero => rfl
  | succ count induction => exact answer_mapM_cons_eq_ok.mpr ⟨_, _, rfl, rfl, induction⟩

theorem takesNumber_of_lexed {name : String} {first : List Token} {count : Nat}
    {statement : Statement} (plain : ∀ word ∈ before, IsWord word)
    (early : before.mapM Token.ofWord = .ok (.name name :: first))
    (parsed : Statement.ofTokens (.name name :: (first ++ .number 0 :: Parse.zeros count)) =
      .ok (some statement)) :
    TakesNumber before (slotSize (Statement.numberSize name) (Parse.zeros count)) := by
  have zero : IsWord ['0'] := by simp [IsWord]; decide
  have split : words ([' '].intercalate (before ++ ['0'] :: List.replicate count ['0'])) =
      before ++ ['0'] :: List.replicate count ['0'] := by
    apply words_intercalate
    intro word member
    rcases List.mem_append.mp member with member | member
    · exact plain word member
    · rw [← List.replicate_succ] at member
      rw [List.eq_of_mem_replicate member]
      exact zero
  have lexed : tokens ([' '].intercalate (before ++ ['0'] :: List.replicate count ['0'])) =
      .ok (.name name :: first ++ .number 0 :: Parse.zeros count) := by
    rw [tokens, split]
    exact answer_mapM_append_eq_ok.mpr
      ⟨before, _, rfl, early, mapM_ofWord_zeros (count + 1)⟩
  refine ⟨_, statement.encode, ['0'], _, 0, ?_, split, ?_, ?_⟩
  · rw [assembleLine_of_lexed lexed, List.cons_append, parsed]
    rfl
  · exact (Token.ofWord_eq_number_iff.mp rfl).1
  · rw [lastSize_of_lexed early, slotSize_of_lexed (mapM_ofWord_zeros count)]

theorem malformed_or_large_of_invalidNumber {text : String}
    (refused : assembleLine line = .error (.invalidNumber text)) :
    (∃ word ∈ words line, Malformed word) ∨
      ∃ before word following number size, words line = before ++ word :: following ∧
        Denotes word number ∧ TakesNumber before size ∧ 2 ^ (8 * size) ≤ number := by
  cases lexed : tokens line with
  | error cause =>
      obtain ⟨word, member, malformed, -⟩ := malformed_of_tokens_error lexed
      exact .inl ⟨word, member, malformed⟩
  | ok found =>
      rw [assembleLine_of_lexed lexed] at refused
      obtain ⟨name, first, number, rest, count, statement, rfl, large, parsed⟩ :=
        Statement.ofTokens_eq_invalidNumber (answer_map_eq_error refused)
      rw [tokens, ← List.cons_append] at lexed
      obtain ⟨before, later, shape, early, late⟩ := answer_mapM_append_eq_ok.mp lexed
      cases later with
      | nil => cases late
      | cons word following =>
          obtain ⟨token, others, ⟨⟩, read, -⟩ := answer_mapM_cons_eq_ok.mp late
          have plain : ∀ word ∈ before, IsWord word := fun word member =>
            isWord_of_mem_words (by rw [shape]; exact List.mem_append_left _ member)
          exact .inr ⟨before, word, following, number, _, shape,
            (Token.ofWord_eq_number_iff.mp read).1, takesNumber_of_lexed plain early parsed, large⟩

end Accepted

/-- Each number in a line that is assembled has all its value in the bytes of its place. A line
is refused for a number if it has one of more than 64 bits anywhere, or one that does not fit
where a number may stand; otherwise only for a word that starts as a number and is none. -/
theorem numbers_never_cut (line : List Char) :
    (∀ bytes, assembleLine line = .ok bytes →
      Lays Writes (lastSize (words line)) (words line) bytes) ∧
    (∀ word ∈ words line, ∀ number, Denotes word number → 2 ^ 64 ≤ number →
      ∃ text, assembleLine line = .error (.invalidNumber text)) ∧
    (∀ before word following number size, words line = before ++ word :: following →
      Denotes word number → TakesNumber before size → 2 ^ (8 * size) ≤ number →
      ∃ text, assembleLine line = .error (.invalidNumber text)) ∧
    ∀ text, assembleLine line = .error (.invalidNumber text) →
      (∃ word ∈ words line, Malformed word) ∨
        ∃ before word following number size, words line = before ++ word :: following ∧
          Denotes word number ∧ TakesNumber before size ∧ 2 ^ (8 * size) ≤ number := by
  refine ⟨fun bytes => lays_of_assembled, ?_, ?_, fun text => malformed_or_large_of_invalidNumber⟩
  · intro word member number denotes large
    exact invalidNumber_of_malformed member (malformed_of_large denotes large)
  · intro before word following number size shape denotes takes large
    exact invalidNumber_of_takesNumber shape denotes takes large

/-- One more than two bytes can hold, where two bytes are asked for. -/
theorem numbers_never_cut_word :
    TakesNumber ["MOVW".toList, "0x10".toList] 2 ∧ Denotes "65536".toList 65536 ∧
      ∃ text, assembleLine "MOVW 0x10 65536".toList = .error (.invalidNumber text) := by
  have digit {char : Char} (value : Nat) (small : value < 10) (same : char = value.digitChar) :
      Text.DigitOf 10 char value := ⟨small, .inl same⟩
  have denotes : Denotes "65536".toList 65536 := by
    refine .decimal ⟨by decide, [6, 5, 5, 3, 6], ?_, by decide⟩
    exact .cons (digit 6 (by decide) rfl) (.cons (digit 5 (by decide) rfl)
      (.cons (digit 5 (by decide) rfl) (.cons (digit 3 (by decide) rfl)
        (.cons (digit 6 (by decide) rfl) .nil))))
  have takes : TakesNumber ["MOVW".toList, "0x10".toList] 2 := by
    refine ⟨"MOVW 0x10 0".toList, [0xee, 0x10, 0, 0], ['0'], [], 0, ?_, by decide +kernel,
      (Token.ofWord_eq_number_iff.mp rfl).1, by decide +kernel⟩
    exact answer_toOption_eq_some.mp (by decide +kernel)
  exact ⟨takes, denotes, (numbers_never_cut _).2.2.1 _ _ [] _ _ (by decide +kernel) denotes takes
    (by decide)⟩

end Assembly

end ByteMachine
