import ByteMachine.Proofs.Assembly.Language

namespace ByteMachine

/-! Readers of tokens check the range of numbers. Where a reader takes some number, it refuses
just the numbers that are too large, and it gives no other reason for that. -/

/-- The number of bytes that a number has if these items follow it. It may be other than one
only in the last place. -/
def slotSize {α : Type} (last : Nat) : (following : List α) → Nat
  | [] => last
  | _ :: _ => 1

@[simp] theorem slotSize_one {α : Type} (following : List α) : slotSize 1 following = 1 := by
  cases following <;> rfl

theorem slotSize_of_ne_nil {α : Type} {following : List α} (more : following ≠ []) (last : Nat) :
    slotSize last following = 1 := by
  cases following with
  | nil => exact absurd rfl more
  | cons item following => rfl

/-- The number of bytes of a number in the last place of an instruction. -/
def Opcode.numberSize : Opcode → Nat
  | load width => width.size
  | _ => 1

namespace Assembly

namespace Parse

variable {α β : Type} {reader : Parse α} {tokens : List Token} {opcode : Opcode}
  {last number : Nat} {text : String}

/-- Numbers that are in range wherever a number is taken. -/
def zeros (count : Nat) : List Token :=
  List.replicate count (.number 0)

theorem zeros_add (first second : Nat) : zeros (first + second) = zeros first ++ zeros second :=
  List.replicate_append_replicate.symm

/-- The reader checks the range of each number that it takes. One in the last place has `last`
bytes, any other has one. -/
structure ChecksRange (last : Nat) (reader : Parse α) : Prop where
  /-- What the reader takes from the front does not depend on what follows. -/
  takes : ∀ {tokens left : List Token} {result : α}, reader tokens = .ok (result, left) →
    ∃ used, used ≠ [] ∧ tokens = used ++ left ∧ ∀ rest, reader (used ++ rest) = .ok (result, rest)
  accepts : ∃ count result, reader (zeros count) = .ok (result, [])
  /-- Another number in the place of one that is taken is refused if it is too large. -/
  refuses : ∀ {before inside : List Token} {small : Nat} {result : α},
    reader (before ++ .number small :: inside) = .ok (result, []) →
    ∀ {number : Nat} (after : List Token), 2 ^ (8 * slotSize last inside) ≤ number →
      reader (before ++ .number number :: after) = .error (.invalidNumber (toString number))
  /-- A number that is refused is too large for a place that takes zero. -/
  blames : ∀ {tokens : List Token} {text : String},
    reader tokens = .error (.invalidNumber text) →
    ∃ before number after count result, tokens = before ++ .number number :: after ∧
      2 ^ (8 * slotSize last (zeros count)) ≤ number ∧
      reader (before ++ .number 0 :: zeros count) = .ok (result, [])

theorem bind_eq_error {after : α → Parse β} {cause : Cause}
    (failed : (reader >>= after) tokens = .error cause) :
    reader tokens = .error cause ∨
      ∃ found left, reader tokens = .ok (found, left) ∧ after found left = .error cause := by
  rcases answer_bind_eq_error failed with first | ⟨⟨found, left⟩, read, later⟩
  · exact .inl first
  · exact .inr ⟨found, left, read, later⟩

namespace ChecksRange

theorem takes_all (checks : ChecksRange last reader) {result : α}
    (read : reader tokens = .ok (result, [])) :
    tokens ≠ [] ∧ ∀ rest, reader (tokens ++ rest) = .ok (result, rest) := by
  obtain ⟨used, nonempty, rfl, taken⟩ := checks.takes read
  rw [List.append_nil]
  exact ⟨nonempty, taken⟩

theorem bind {after : α → Parse β} (first : ChecksRange 1 reader)
    (later : ∀ found, ChecksRange last (after found)) : ChecksRange last (reader >>= after) where
  takes := by
    intro tokens left result read
    obtain ⟨found, middle, read, readLater⟩ := bind_eq_ok.mp read
    obtain ⟨used, nonempty, rfl, taken⟩ := first.takes read
    obtain ⟨usedLater, -, rfl, takenLater⟩ := (later found).takes readLater
    refine ⟨used ++ usedLater, by simp [nonempty], (List.append_assoc _ _ _).symm, fun rest => ?_⟩
    rw [List.append_assoc, bind_of_ok (taken _), takenLater]
  accepts := by
    obtain ⟨count, found, read⟩ := first.accepts
    obtain ⟨countLater, result, readLater⟩ := (later found).accepts
    refine ⟨count + countLater, result, ?_⟩
    rw [zeros_add, bind_of_ok ((first.takes_all read).2 _), readLater]
  refuses := by
    intro before inside small result read number rest large
    obtain ⟨found, middle, read, readLater⟩ := bind_eq_ok.mp read
    obtain ⟨used, -, shape, taken⟩ := first.takes read
    have more := ((later found).takes_all readLater).1
    -- The number is in what the first reader takes, or behind that.
    rcases List.append_eq_append_iff.mp shape with ⟨behind, rfl, tail⟩ | ⟨behind, rfl, rfl⟩
    · cases behind with
      | nil =>
          have whole : after found ([] ++ .number small :: inside) = .ok (result, []) := by
            rw [tail]
            exact readLater
          rw [List.append_nil] at taken
          rw [bind_of_ok (taken _)]
          exact (later found).refuses whole rest large
      | cons token behind =>
          obtain ⟨rfl, rfl⟩ := List.cons.inj tail
          have whole := taken []
          rw [List.append_nil] at whole
          rw [slotSize_of_ne_nil (by simp [more])] at large
          exact bind_of_error (first.refuses whole rest (by simpa using large))
    · rw [List.append_assoc, bind_of_ok (taken _)]
      exact (later found).refuses readLater rest large
  blames := by
    intro tokens text failed
    rcases bind_eq_error failed with failed | ⟨found, middle, read, failedLater⟩
    · obtain ⟨before, number, rest, count, found, rfl, large, read⟩ := first.blames failed
      obtain ⟨countLater, result, readLater⟩ := (later found).accepts
      have more := ((later found).takes_all readLater).1
      refine ⟨before, number, rest, count + countLater, result, rfl, ?_, ?_⟩
      · rw [zeros_add, slotSize_of_ne_nil (by simp [more])]
        simpa using large
      · have taken := (first.takes_all read).2 (zeros countLater)
        rw [List.append_assoc, List.cons_append, ← zeros_add] at taken
        rw [bind_of_ok taken, readLater]
    · obtain ⟨used, -, rfl, taken⟩ := first.takes read
      obtain ⟨before, number, rest, count, result, rfl, large, readLater⟩ :=
        (later found).blames failedLater
      refine ⟨used ++ before, number, rest, count, result, (List.append_assoc _ _ _).symm, large,
        ?_⟩
      rw [List.append_assoc, bind_of_ok (taken _), readLater]

theorem map (checks : ChecksRange last reader) (change : α → β) :
    ChecksRange last (do let found ← reader; return change found) where
  takes := by
    intro tokens left result read
    obtain ⟨found, middle, read, ⟨⟩⟩ := bind_eq_ok.mp read
    obtain ⟨used, nonempty, rfl, taken⟩ := checks.takes read
    exact ⟨used, nonempty, rfl, fun rest => bind_ok (taken rest) rfl⟩
  accepts := by
    obtain ⟨count, found, read⟩ := checks.accepts
    exact ⟨count, change found, bind_ok read rfl⟩
  refuses := by
    intro before inside small result read number rest large
    obtain ⟨found, middle, read, ⟨⟩⟩ := bind_eq_ok.mp read
    exact bind_of_error (checks.refuses read rest large)
  blames := by
    intro tokens text failed
    rcases bind_eq_error failed with failed | ⟨found, middle, read, ⟨⟩⟩
    obtain ⟨before, number, rest, count, found, shape, large, read⟩ := checks.blames failed
    exact ⟨before, number, rest, count, change found, shape, large, bind_ok read rfl⟩

end ChecksRange

section Operand

variable {levels : Nat}

theorem byte_of_large (large : 256 ≤ number) :
    byte number = .error (.invalidNumber (toString number)) :=
  if_neg (Nat.not_lt_of_le large)

theorem byte_eq_invalidNumber (failed : byte number = .error (.invalidNumber text)) :
    256 ≤ number := by
  by_contra small
  rw [byte, if_pos (Nat.lt_of_not_le small)] at failed
  cases failed

theorem literal_of_large (symbol : Byte → Symbol) (large : 256 ≤ number) :
    literal symbol number = .error (.invalidNumber (toString number)) := by
  rw [literal, byte_of_large large]
  rfl

theorem literal_eq_invalidNumber {symbol : Byte → Symbol}
    (failed : literal symbol number = .error (.invalidNumber text)) : 256 ≤ number := by
  rcases answer_bind_eq_error failed with large | ⟨byte, -, failed⟩
  · exact byte_eq_invalidNumber large
  · split at failed
    · cases failed
    · cases failed

theorem lift_eq_error {answer : Except Cause α} {cause : Cause}
    (failed : (liftM answer : Parse α) tokens = .error cause) : answer = .error cause := by
  cases answer with
  | error other =>
      cases failed
      rfl
  | ok found => cases failed

theorem size?_ne_error {cause : Cause} : size? tokens ≠ .error cause := by
  unfold size?
  split
  · split <;> nofun
  · nofun

/-- Whether a size comes first is not told from the number behind. -/
theorem size?_of_number {before after rest : List Token} {small : Nat}
    (unsized : size? (before ++ .number small :: after) =
      .ok (none, before ++ .number small :: after)) :
    size? (before ++ .number number :: rest) = .ok (none, before ++ .number number :: rest) := by
  cases before with
  | nil => rfl
  | cons token before =>
      cases token with
      | number value => rfl
      | name name =>
          simp only [List.cons_append, size?] at unsized ⊢
          cases found : (Opcode.ofMnemonic? name).bind Opcode.width? with
          | none => rfl
          | some width =>
              rw [found] at unsized
              cases unsized

/-- A name in front of a number belongs to what is in front of it. -/
theorem exists_before_of_name {name : String} {rest before inside : List Token} {small : Nat}
    (shape : .name name :: rest = before ++ .number small :: inside) :
    ∃ behind, before = .name name :: behind ∧ rest = behind ++ .number small :: inside := by
  cases before with
  | nil => cases (List.cons.inj shape).1
  | cons token behind =>
      obtain ⟨rfl, later⟩ := List.cons.inj shape
      exact ⟨behind, rfl, later⟩

theorem operand_of_large {written : Operand} (valid : written.Unambiguous)
    (shallow : written.depth ≤ levels) {before inside : List Token} {small : Nat}
    (shape : written.tokens = before ++ .number small :: inside) (large : 256 ≤ number)
    (after : List Token) :
    operand opcode (levels + 1) (before ++ .number number :: after) =
      .error (.invalidNumber (toString number)) := by
  induction written generalizing levels before with
  | literal byte =>
      cases before with
      | nil => exact lift_of_error (literal_of_large Symbol.ofByte large)
      | cons token before => simp [Operand.tokens] at shape
  | top =>
      obtain ⟨behind, -, shape⟩ := exists_before_of_name shape
      simp at shape
  | insPtr =>
      obtain ⟨behind, -, shape⟩ := exists_before_of_name shape
      simp at shape
  | ref width inner induction =>
      cases levels with
      | zero => cases shallow
      | succ levels =>
          obtain ⟨apart, innerValid⟩ := Operand.unambiguous_ref.mp valid
          have below {behind : List Token}
              (innerShape : inner.tokens = behind ++ .number small :: inside) :=
            induction innerValid (Nat.le_of_succ_le_succ shallow) innerShape
          cases width with
          | none =>
              obtain ⟨behind, rfl, innerShape⟩ := exists_before_of_name shape
              have unsized := size?_tokens (apart rfl) []
              rw [List.append_nil, innerShape] at unsized
              refine (operand_name (levels + 1) .ref _).trans ?_
              refine (bind_of_ok (size?_of_number unsized)).trans ?_
              exact bind_of_error (below innerShape)
          | some width =>
              obtain ⟨behind, rfl, sizeShape⟩ := exists_before_of_name shape
              obtain ⟨behind, rfl, innerShape⟩ := exists_before_of_name sizeShape
              refine (operand_name (levels + 1) .ref _).trans ?_
              refine (bind_of_ok (size?_size width _)).trans ?_
              exact bind_of_error (below innerShape)
  | sized width inner induction =>
      cases levels with
      | zero => cases shallow
      | succ levels =>
          obtain ⟨behind, rfl, innerShape⟩ := exists_before_of_name shape
          have innerValid := Operand.unambiguous_sized.mp valid
          refine (operand_name (levels + 1) (.size width) _).trans ?_
          exact bind_of_error
            (induction innerValid (Nat.le_of_succ_le_succ shallow) innerShape)

theorem operand_zero (levels : Nat) :
    operand opcode (levels + 1) [.number 0] = .ok (.literal 0, []) :=
  operand_number levels (show Opcode.ofByte? 0 = none by decide) []

/-- The operand around one that takes zero in the place of the number does so, too. -/
theorem operand_eq_invalidNumber
    (failed : operand opcode levels tokens = .error (.invalidNumber text)) :
    ∃ before number after result, tokens = before ++ .number number :: after ∧ 256 ≤ number ∧
      operand opcode levels (before ++ [.number 0]) = .ok (result, []) := by
  induction levels generalizing tokens with
  | zero => cases failed
  | succ levels induction =>
      cases tokens with
      | nil => cases failed
      | cons token tokens =>
          cases token with
          | number number =>
              rw [operand, next_bind] at failed
              have large := literal_eq_invalidNumber (lift_eq_error failed)
              exact ⟨[], number, tokens, .literal 0, rfl, large, operand_zero levels⟩
          | name name =>
              cases entry : Opcode.ofMnemonic? name with
              | none =>
                  rw [operand, next_bind] at failed
                  simp only [entry] at failed
                  cases failed
              | some marker =>
                  obtain rfl := Opcode.ofMnemonic?_eq_some_iff.mp entry
                  rw [operand_name] at failed
                  cases marker with
                  | ref =>
                      rcases bind_eq_error failed with sized | ⟨width, left, sized, failed⟩
                      · exact absurd sized size?_ne_error
                      · rcases bind_eq_error failed with failed | ⟨inner, last, read, ⟨⟩⟩
                        obtain ⟨before, number, after, result, rfl, large, read⟩ :=
                          induction failed
                        obtain ⟨found, rfl, rfl⟩ | ⟨rfl, rfl, -⟩ := size?_eq_ok sized
                        · refine ⟨_ :: _ :: before, number, after, .ref (some found) result,
                            rfl, large, ?_⟩
                          refine (operand_name levels .ref _).trans ?_
                          exact bind_ok (size?_size found _) (bind_ok read rfl)
                        · refine ⟨_ :: before, number, after, .ref none result, rfl, large, ?_⟩
                          refine (operand_name levels .ref _).trans ?_
                          exact bind_ok (size?_of_number sized) (bind_ok read rfl)
                  | size width =>
                      rcases bind_eq_error failed with failed | ⟨inner, last, read, ⟨⟩⟩
                      obtain ⟨before, number, after, result, rfl, large, read⟩ :=
                        induction failed
                      refine ⟨_ :: before, number, after, .sized width result, rfl, large, ?_⟩
                      refine (operand_name levels (.size width) _).trans ?_
                      exact bind_ok read rfl
                  | _ => cases failed

theorem tokens_ne_nil (written : Operand) : written.tokens ≠ [] := by
  cases written with
  | ref width inner => cases width <;> exact List.cons_ne_nil _ _
  | _ => exact List.cons_ne_nil _ _

theorem checksRange_address : ChecksRange 1 (address opcode) where
  takes := by
    intro tokens left result read
    obtain ⟨valid, rfl⟩ := address_eq_ok read
    exact ⟨result.tokens, tokens_ne_nil result, rfl, address_tokens valid⟩
  accepts := ⟨1, .literal 0, operand_zero _⟩
  refuses := by
    intro before inside small result read number after large
    obtain ⟨valid, shape⟩ := address_eq_ok read
    rw [List.append_nil] at shape
    rw [slotSize_one] at large
    exact operand_of_large valid.toUnambiguous (Nat.le_of_lt_succ valid.shallow) shape.symm
      large after
  blames := by
    intro tokens text failed
    obtain ⟨before, number, after, result, shape, large, read⟩ := operand_eq_invalidNumber failed
    exact ⟨before, number, after, 0, result, shape, by simpa using large, read⟩

theorem byteOperand_of_unsized {name : String}
    (unsized : (Opcode.ofMnemonic? name).bind Opcode.width? = none) (rest : List Token) :
    byteOperand opcode (.name name :: rest) = address opcode (.name name :: rest) := by
  rw [byteOperand, unsized]

theorem byteOperand_of_sized {name : String} {width : Width}
    (sized : (Opcode.ofMnemonic? name).bind Opcode.width? = some width) (rest : List Token) :
    byteOperand opcode (.name name :: rest) = .error (.unexpectedToken name) := by
  rw [byteOperand, sized]

theorem checksRange_byteOperand : ChecksRange 1 (byteOperand opcode) where
  takes := by
    intro tokens left result read
    obtain ⟨valid, rfl⟩ := byteOperand_eq_ok read
    exact ⟨result.tokens, tokens_ne_nil result, rfl, byteOperand_tokens valid⟩
  accepts := ⟨1, .literal 0, rfl⟩
  refuses := by
    intro before inside small result read number after large
    cases before with
    | nil =>
        rw [slotSize_one] at large
        change (literal Symbol.ofValueByte number >>= fun found => pure (found, after)) = _
        rw [literal_of_large _ large]
        rfl
    | cons token before =>
        cases token with
        | number value =>
            obtain ⟨found, -, ended⟩ := answer_bind_eq_ok.mp read
            simp [pure, Except.pure] at ended
        | name name =>
            cases found : (Opcode.ofMnemonic? name).bind Opcode.width? with
            | some width =>
                rw [List.cons_append, byteOperand_of_sized found] at read
                cases read
            | none =>
                rw [List.cons_append, byteOperand_of_unsized found, ← List.cons_append] at read ⊢
                exact checksRange_address.refuses read after large
  blames := by
    intro tokens text failed
    cases tokens with
    | nil => cases failed
    | cons token tokens =>
        cases token with
        | number number =>
            rcases answer_bind_eq_error failed with failed | ⟨found, -, ⟨⟩⟩
            have large := literal_eq_invalidNumber failed
            exact ⟨[], number, tokens, 0, .literal 0, rfl, by simpa using large, rfl⟩
        | name name =>
            cases found : (Opcode.ofMnemonic? name).bind Opcode.width? with
            | some width =>
                rw [byteOperand_of_sized found] at failed
                cases failed
            | none =>
                rw [byteOperand_of_unsized found] at failed
                obtain ⟨before, number, after, count, result, shape, large, read⟩ :=
                  checksRange_address.blames failed
                obtain ⟨behind, rfl, rfl⟩ := exists_before_of_name shape
                refine ⟨.name name :: behind, number, after, count, result, rfl, large, ?_⟩
                exact (byteOperand_of_unsized found _).trans read

theorem pushed_number (number : Nat) (rest : List Token) :
    pushed opcode (.number number :: rest) = (do
      let found ← byte number
      if found = Opcode.insPtr.code then .error (.ambiguousLiteral found .insPtr)
      else .ok (.literal found, rest)) := by
  rw [pushed, next_bind]
  cases checked : byte number with
  | error cause => exact bind_of_error (lift_of_error checked)
  | ok found =>
      refine (bind_of_ok (lift_of_ok checked)).trans ?_
      change _ = if found = Opcode.insPtr.code then _ else _
      split <;> rfl

theorem checksRange_pushed : ChecksRange 1 (pushed opcode) where
  takes := by
    intro tokens left result read
    obtain ⟨valid, rfl⟩ := pushed_eq_ok read
    exact ⟨result.tokens, tokens_ne_nil result, rfl, pushed_tokens valid⟩
  accepts := ⟨1, .literal 0, rfl⟩
  refuses := by
    intro before inside small result read number after large
    rw [slotSize_one] at large
    cases before with
    | nil =>
        rw [List.nil_append, pushed_number, byte_of_large large]
        rfl
    | cons token before =>
        obtain ⟨valid, shape⟩ := pushed_eq_ok read
        cases result <;> simp [Operand.tokens] at shape <;> cases valid
  blames := by
    intro tokens text failed
    cases tokens with
    | nil => cases failed
    | cons token tokens =>
        cases token with
        | number number =>
            rw [pushed_number] at failed
            rcases answer_bind_eq_error failed with failed | ⟨found, -, failed⟩
            · have large := byte_eq_invalidNumber failed
              exact ⟨[], number, tokens, 0, .literal 0, rfl, by simpa using large, rfl⟩
            · split at failed
              · cases failed
              · cases failed
        | name name =>
            rw [pushed, next_bind] at failed
            cases entry : Opcode.ofMnemonic? name with
            | none =>
                simp only [entry] at failed
                cases failed
            | some marker =>
                simp only [entry] at failed
                cases marker <;> cases failed

theorem immediate_number (width : Width) (number : Nat) (rest : List Token) :
    immediate opcode width (.number number :: rest) =
      if number ≤ width.mask.toNat then .ok (.ofNat width number, rest)
      else .error (.invalidNumber (toString number)) := by
  rw [immediate, next_bind]
  dsimp only
  split <;> rfl

theorem checksRange_immediate (width : Width) :
    ChecksRange width.size (immediate opcode width) where
  takes := by
    intro tokens left result read
    obtain ⟨rfl, rfl⟩ := immediate_eq_ok read
    exact ⟨[.number result.toNat], List.cons_ne_nil _ _, rfl, immediate_toNat result⟩
  accepts := ⟨1, .ofNat width 0, rfl⟩
  refuses := by
    intro before inside small result read number after large
    obtain ⟨rfl, shape⟩ := immediate_eq_ok read
    cases before with
    | nil =>
        obtain ⟨-, rfl⟩ := List.cons.inj shape
        rw [slotSize, Width.two_pow_size] at large
        rw [List.nil_append, immediate_number, if_neg (Nat.not_le_of_lt large)]
    | cons token before => simp at shape
  blames := by
    intro tokens text failed
    cases tokens with
    | nil => cases failed
    | cons token tokens =>
        cases token with
        | number number =>
            refine ⟨[], number, tokens, 0, .ofNat width 0, rfl, ?_, rfl⟩
            rw [immediate_number] at failed
            split at failed
            · cases failed
            · rename_i large
              rw [zeros, List.replicate_zero, slotSize, Width.two_pow_size]
              exact Nat.lt_of_not_le large
        | name name => cases failed

end Operand

theorem checksRange_body (asks : opcode ≠ .pop) (plain : opcode.isMarker = false) :
    ChecksRange opcode.numberSize (body opcode) := by
  cases opcode with
  | move => exact checksRange_address.bind fun _ => checksRange_address.map _
  | load width => exact checksRange_address.bind fun _ => (checksRange_immediate width).map _
  | jump => exact checksRange_address.map _
  | push => exact checksRange_pushed.map _
  | pop => exact absurd rfl asks
  | arithmetic op => exact checksRange_byteOperand.bind fun _ => checksRange_byteOperand.map _
  | compare condition =>
      exact checksRange_byteOperand.bind fun _ => checksRange_byteOperand.map _
  | branch condition =>
      exact checksRange_byteOperand.bind fun _ =>
        checksRange_byteOperand.bind fun _ => checksRange_address.map _
  | bitwise op => exact checksRange_address.bind fun _ => checksRange_byteOperand.map _
  | invert => exact checksRange_address.map _
  | _ => cases plain

theorem body_of_isMarker (marker : opcode.isMarker = true) :
    body opcode tokens = .error (.unexpectedToken opcode.mnemonic) := by
  cases opcode with
  | top => rfl
  | ref => rfl
  | insPtr => rfl
  | size width => rfl
  | _ => cases marker

theorem body_of_large {before inside : List Token} {small : Nat} {written : Instruction}
    (read : body opcode (before ++ .number small :: inside) = .ok (written, []))
    (large : 2 ^ (8 * slotSize opcode.numberSize inside) ≤ number) (after : List Token) :
    body opcode (before ++ .number number :: after) =
      .error (.invalidNumber (toString number)) := by
  by_cases asks : opcode = .pop
  · subst asks
    simp [body, pure, StateT.pure, Except.pure] at read
  cases plain : opcode.isMarker with
  | true =>
      rw [body_of_isMarker plain] at read
      cases read
  | false => exact (checksRange_body asks plain).refuses read after large

theorem body_eq_invalidNumber (failed : body opcode tokens = .error (.invalidNumber text)) :
    ∃ before number after count written, tokens = before ++ .number number :: after ∧
      2 ^ (8 * slotSize opcode.numberSize (zeros count)) ≤ number ∧
      body opcode (before ++ .number 0 :: zeros count) = .ok (written, []) := by
  by_cases asks : opcode = .pop
  · subst asks
    cases failed
  cases plain : opcode.isMarker with
  | true =>
      rw [body_of_isMarker plain] at failed
      cases failed
  | false => exact (checksRange_body asks plain).blames failed

end Parse

namespace Statement

open Parse (zeros)

variable {name text : String} {tokens before inside : List Token} {small number : Nat}
  {opcode : Opcode} {statement : Statement}

/-- The number of bytes of the last number in a line that starts with the name. -/
def numberSize (name : String) : Nat :=
  ((Opcode.ofMnemonic? name).map Opcode.numberSize).getD 1

theorem numberSize_mnemonic (opcode : Opcode) :
    numberSize opcode.mnemonic = opcode.numberSize := by
  simp [numberSize]

theorem numberSize_dataMnemonic : numberSize dataMnemonic = 1 := rfl

theorem datum_eq_invalidNumber {token : Token}
    (failed : datum token = .error (.invalidNumber text)) :
    ∃ number, token = .number number ∧ 256 ≤ number := by
  cases token with
  | number number => exact ⟨number, rfl, Parse.byte_eq_invalidNumber failed⟩
  | name name => cases failed

theorem dataOfTokens_of_ne_nil (nonempty : tokens ≠ []) :
    dataOfTokens tokens = (tokens.mapM datum).map data := by
  cases tokens with
  | nil => exact absurd rfl nonempty
  | cons token tokens =>
      rw [dataOfTokens]
      · cases (token :: tokens).mapM datum <;> rfl
      · exact nonempty

theorem dataOfTokens_of_large
    (read : dataOfTokens (before ++ .number small :: inside) = .ok statement)
    (large : 256 ≤ number) (after : List Token) :
    dataOfTokens (before ++ .number number :: after) =
      .error (.invalidNumber (toString number)) := by
  rw [dataOfTokens_of_ne_nil (by simp)] at read ⊢
  obtain ⟨bytes, found, -⟩ := answer_map_eq_ok.mp read
  rw [List.mapM_append] at found
  obtain ⟨first, answered, -⟩ := answer_bind_eq_ok.mp found
  have failed : (before ++ .number number :: after).mapM datum =
      .error (.invalidNumber (toString number)) :=
    answer_mapM_eq_error_iff.mpr
      ⟨before, _, after, first, rfl, answered, Parse.byte_of_large large⟩
  rw [failed]
  rfl

theorem dataOfTokens_eq_invalidNumber
    (failed : dataOfTokens tokens = .error (.invalidNumber text)) :
    ∃ before number after statement, tokens = before ++ .number number :: after ∧
      256 ≤ number ∧ dataOfTokens (before ++ [.number 0]) = .ok statement := by
  cases tokens with
  | nil => cases failed
  | cons token tokens =>
      rw [dataOfTokens_of_ne_nil (List.cons_ne_nil _ _)] at failed
      obtain ⟨before, token, after, bytes, shape, answered, failed⟩ :=
        answer_mapM_eq_error_iff.mp (answer_map_eq_error failed)
      obtain ⟨number, rfl, large⟩ := datum_eq_invalidNumber failed
      refine ⟨before, number, after, .data (bytes ++ [0]), shape, large, ?_⟩
      rw [dataOfTokens_of_ne_nil (by simp), List.mapM_append, answered]
      rfl

theorem instructionOfTokens_of_read {written : Instruction}
    (read : Parse.body opcode tokens = .ok (written, [])) :
    instructionOfTokens opcode tokens = .ok (.instruction written) := by
  rw [instructionOfTokens, read]
  rfl

theorem instructionOfTokens_of_failed {cause : Cause}
    (failed : Parse.body opcode tokens = .error cause) :
    instructionOfTokens opcode tokens = .error cause := by
  rw [instructionOfTokens, failed]
  rfl

theorem exists_body_of_read (read : instructionOfTokens opcode tokens = .ok statement) :
    ∃ written, Parse.body opcode tokens = .ok (written, []) := by
  obtain ⟨⟨written, rest⟩, parsed, after⟩ := answer_bind_eq_ok.mp read
  cases rest with
  | nil => exact ⟨written, parsed⟩
  | cons token rest => cases after

theorem body_of_invalidNumber
    (failed : instructionOfTokens opcode tokens = .error (.invalidNumber text)) :
    Parse.body opcode tokens = .error (.invalidNumber text) := by
  rcases answer_bind_eq_error failed with failed | ⟨⟨written, rest⟩, -, failed⟩
  · exact failed
  · cases rest with
    | nil => cases failed
    | cons token rest => cases failed

/-- In a line that says something, a number in the place of another is refused if it is too
large for it. -/
theorem ofTokens_of_large
    (read : ofTokens (.name name :: (before ++ .number small :: inside)) = .ok (some statement))
    (large : 2 ^ (8 * slotSize (numberSize name) inside) ≤ number) (after : List Token) :
    ofTokens (.name name :: (before ++ .number number :: after)) =
      .error (.invalidNumber (toString number)) := by
  rw [ofTokens] at read ⊢
  by_cases data : name = dataMnemonic
  · subst data
    rw [if_pos rfl] at read ⊢
    obtain ⟨statement, found, -⟩ := answer_map_eq_ok.mp read
    rw [numberSize_dataMnemonic, slotSize_one] at large
    rw [dataOfTokens_of_large found large after]
    rfl
  · rw [if_neg data] at read ⊢
    cases entry : Opcode.ofMnemonic? name with
    | none =>
        rw [entry] at read
        cases read
    | some opcode =>
        rw [entry] at read
        obtain rfl := Opcode.ofMnemonic?_eq_some_iff.mp entry
        rw [numberSize_mnemonic] at large
        obtain ⟨statement, found, -⟩ := answer_map_eq_ok.mp read
        obtain ⟨written, parsed⟩ := exists_body_of_read found
        have failed := Parse.body_of_large parsed large after
        change (instructionOfTokens opcode _).map some = _
        rw [instructionOfTokens_of_failed failed]
        rfl

/-- A line is refused for a number only where it may have zero. -/
theorem ofTokens_eq_invalidNumber (failed : ofTokens tokens = .error (.invalidNumber text)) :
    ∃ name before number after count statement,
      tokens = .name name :: (before ++ .number number :: after) ∧
      2 ^ (8 * slotSize (numberSize name) (zeros count)) ≤ number ∧
      ofTokens (.name name :: (before ++ .number 0 :: zeros count)) = .ok (some statement) := by
  match tokens with
  | [] => cases failed
  | .number number :: rest => cases failed
  | .name name :: rest =>
      rw [ofTokens] at failed
      by_cases data : name = dataMnemonic
      · subst data
        rw [if_pos rfl] at failed
        obtain ⟨before, number, after, statement, rfl, large, read⟩ :=
          dataOfTokens_eq_invalidNumber (answer_map_eq_error failed)
        refine ⟨dataMnemonic, before, number, after, 0, statement, rfl, ?_, ?_⟩
        · rw [numberSize_dataMnemonic, slotSize_one]
          exact large
        · rw [ofTokens, if_pos rfl]
          exact answer_map_eq_ok.mpr ⟨statement, read, rfl⟩
      · rw [if_neg data] at failed
        cases entry : Opcode.ofMnemonic? name with
        | none =>
            rw [entry] at failed
            cases failed
        | some opcode =>
            rw [entry] at failed
            obtain rfl := Opcode.ofMnemonic?_eq_some_iff.mp entry
            obtain ⟨before, number, after, count, written, rfl, large, read⟩ :=
              Parse.body_eq_invalidNumber (body_of_invalidNumber (answer_map_eq_error failed))
            refine ⟨opcode.mnemonic, before, number, after, count, .instruction written, rfl, ?_,
              ?_⟩
            · rw [numberSize_mnemonic]
              exact large
            · rw [ofTokens, if_neg data, entry]
              exact answer_map_eq_ok.mpr ⟨_, instructionOfTokens_of_read read, rfl⟩

end Statement

end Assembly

end ByteMachine
