import ByteMachine.Proofs.Encoding.Decode

namespace ByteMachine

/-! Errors of readers are exact. A reader complains about the end of its input just
if more input could help, and any other error is decided by the bytes read so far. -/

namespace Decode

variable {α β : Type}

structure Exact (reader : Decode α) : Prop where
  /-- Some input is read to its end. -/
  completes : ∃ bytes result, reader bytes = .ok result []
  /-- A result depends on no byte that was left. -/
  settled : ∀ {bytes result rest}, reader bytes = .ok result rest →
    ∃ read, bytes = read ++ rest ∧ ∀ suffix, reader (read ++ suffix) = .ok result suffix
  /-- Input that ends too early is the start of input that is read. -/
  truncated : ∀ {bytes rest}, reader bytes = .error .unexpectedEnd rest →
    ∃ suffix result, reader (bytes ++ suffix) = .ok result []
  /-- Nothing behind the bytes read changes any other error. -/
  stuck : ∀ {bytes error rest}, reader bytes = .error error rest → error ≠ .unexpectedEnd →
    ∃ read, bytes = read ++ rest ∧
      ∀ suffix, ∃ left, reader (read ++ suffix) = .error error left
  lengths : ∀ {bytes rest} (length : Nat),
    reader bytes ≠ .error (.invalidLength length) rest

theorem bind_of_ok {reader : Decode α} {after : α → Decode β} {bytes left : List Byte}
    {first : α} (read : reader bytes = .ok first left) :
    (reader >>= after) bytes = after first left := by
  change EStateM.bind reader after bytes = _
  rw [EStateM.bind, read]

theorem bind_of_error {reader : Decode α} {after : α → Decode β} {bytes left : List Byte}
    {error : DecodeError} (failed : reader bytes = .error error left) :
    (reader >>= after) bytes = .error error left := by
  change EStateM.bind reader after bytes = _
  rw [EStateM.bind, failed]

theorem bind_eq_error {reader : Decode α} {after : α → Decode β} {bytes rest : List Byte}
    {error : DecodeError} (failed : (reader >>= after) bytes = .error error rest) :
    reader bytes = .error error rest ∨
      ∃ first left, reader bytes = .ok first left ∧ after first left = .error error rest := by
  cases read : reader bytes with
  | error other left =>
      rw [bind_of_error read] at failed
      cases failed
      exact .inl rfl
  | ok first left =>
      rw [bind_of_ok read] at failed
      exact .inr ⟨first, left, rfl, failed⟩

namespace Exact

/-- A reader that leaves nothing has read all. -/
theorem reads_all {reader : Decode α} (exact : Exact reader) {bytes : List Byte}
    {result : α} (read : reader bytes = .ok result []) (suffix : List Byte) :
    reader (bytes ++ suffix) = .ok result suffix := by
  obtain ⟨_, rfl, same⟩ := exact.settled read
  simpa using same suffix

theorem pure (result : α) : Exact (pure result : Decode α) where
  completes := ⟨[], result, rfl⟩
  settled := by
    intro bytes other rest read
    cases read
    exact ⟨[], rfl, fun _ => rfl⟩
  truncated := nofun
  stuck := nofun
  lengths := nofun

theorem bind {reader : Decode α} {after : α → Decode β} (first : Exact reader)
    (second : ∀ result, Exact (after result)) : Exact (reader >>= after) where
  completes := by
    obtain ⟨bytes, result, read⟩ := first.completes
    obtain ⟨later, last, done⟩ := (second result).completes
    exact ⟨bytes ++ later, last, (bind_of_ok (first.reads_all read later)).trans done⟩
  settled := by
    intro bytes last rest read
    obtain ⟨result, left, begun, done⟩ := bind_eq_ok.mp read
    obtain ⟨head, rfl, headSame⟩ := first.settled begun
    obtain ⟨tail, rfl, tailSame⟩ := (second result).settled done
    refine ⟨head ++ tail, by simp, fun suffix => ?_⟩
    rw [List.append_assoc, bind_of_ok (headSame _), tailSame]
  truncated := by
    intro bytes rest failed
    rcases bind_eq_error failed with begun | ⟨result, left, begun, ended⟩
    · obtain ⟨suffix, result, read⟩ := first.truncated begun
      obtain ⟨later, last, done⟩ := (second result).completes
      refine ⟨suffix ++ later, last, ?_⟩
      rw [← List.append_assoc, bind_of_ok (first.reads_all read later), done]
    · obtain ⟨head, rfl, headSame⟩ := first.settled begun
      obtain ⟨suffix, last, done⟩ := (second result).truncated ended
      refine ⟨suffix, last, ?_⟩
      rw [List.append_assoc, bind_of_ok (headSame _), done]
  stuck := by
    intro bytes error rest failed other
    rcases bind_eq_error failed with begun | ⟨result, left, begun, ended⟩
    · obtain ⟨read, spelled, same⟩ := first.stuck begun other
      refine ⟨read, spelled, fun suffix => ?_⟩
      obtain ⟨left, fails⟩ := same suffix
      exact ⟨left, bind_of_error fails⟩
    · obtain ⟨head, rfl, headSame⟩ := first.settled begun
      obtain ⟨tail, rfl, tailSame⟩ := (second result).stuck ended other
      refine ⟨head ++ tail, by simp, fun suffix => ?_⟩
      obtain ⟨left, fails⟩ := tailSame suffix
      refine ⟨left, ?_⟩
      rw [List.append_assoc, bind_of_ok (headSame _), fails]
  lengths := by
    intro bytes rest length failed
    rcases bind_eq_error failed with begun | ⟨result, left, -, ended⟩
    · exact first.lengths length begun
    · exact (second result).lengths length ended

end Exact

theorem exact_next : Exact next where
  completes := ⟨[0], 0, rfl⟩
  settled := by
    intro bytes byte rest read
    obtain rfl := next_eq_ok read
    exact ⟨[byte], rfl, fun _ => rfl⟩
  truncated := by
    intro bytes rest failed
    cases bytes with
    | nil => exact ⟨[0], 0, rfl⟩
    | cons byte tail => cases failed
  stuck := by
    intro bytes error rest failed other
    cases bytes with
    | nil =>
        cases failed
        exact absurd rfl other
    | cons byte tail => cases failed
  lengths := by
    intro bytes rest length failed
    cases bytes with
    | nil => cases failed
    | cons byte tail => cases failed

theorem exact_value (width : Width) : Exact (value width) := by
  -- Zeros fill up what is missing.
  have filled : ∀ bytes : List Byte, bytes.length ≤ width.size →
      ∃ suffix found, value width (bytes ++ suffix) = .ok found [] := by
    intro bytes short
    have length : (bytes ++ List.replicate (width.size - bytes.length) 0).length =
        width.size := by
      simp only [List.length_append, List.length_replicate]
      omega
    obtain ⟨found, rfl, spelled⟩ := Value.exists_bytes_eq length
    refine ⟨List.replicate (found.width.size - bytes.length) 0, found, ?_⟩
    rw [← spelled]
    simpa using value_bytes found []
  refine ⟨?_, ?_, ?_, ?_, ?_⟩
  · obtain ⟨suffix, found, read⟩ := filled [] (Nat.zero_le _)
    exact ⟨[] ++ suffix, found, read⟩
  · intro bytes found rest read
    obtain ⟨rfl, rfl⟩ := value_eq_ok read
    exact ⟨found.bytes, rfl, value_bytes found⟩
  · intro bytes rest failed
    rcases value_cases width bytes with ⟨_, _, -, -, read⟩ | ⟨short, -⟩
    · rw [read] at failed
      cases failed
    · exact filled bytes (Nat.le_of_lt short)
  · intro bytes error rest failed other
    rcases value_cases width bytes with ⟨_, _, -, -, read⟩ | ⟨-, ended⟩
    · rw [read] at failed
      cases failed
    · rw [ended] at failed
      cases failed
      exact absurd rfl other
  · intro bytes rest length failed
    rcases value_cases width bytes with ⟨_, _, -, -, read⟩ | ⟨-, ended⟩
    · rw [read] at failed
      cases failed
    · rw [ended] at failed
      cases failed

section Operand

variable {levels : Nat} {bytes rest tail : List Byte} {error : DecodeError}

theorem operand_unknown (levels : Nat) {marker : Opcode} (starts : marker.isMarker = false)
    (rest : List Byte) :
    operand (levels + 1) (marker.code :: rest) = .error (.unknownMarker marker) rest := by
  rw [operand, next_bind, Symbol.ofByte_code]
  cases marker <;> first | rfl | cases starts

theorem operand_size_error (failed : operand levels tail = .error error rest)
    (width : Width) :
    operand (levels + 1) ((Opcode.size width).code :: tail) = .error error rest :=
  (operand_size levels width tail).trans (bind_of_error failed)

theorem operand_ref_size_error (failed : operand levels tail = .error error rest)
    (width : Width) :
    operand (levels + 1) (Opcode.ref.code :: (Opcode.size width).code :: tail) =
      .error error rest :=
  (operand_ref levels _).trans <|
    (bind_of_ok (size?_size width tail)).trans (bind_of_error failed)

theorem operand_ref_error (failed : operand levels tail = .error error rest)
    (other : ∀ width after, tail ≠ (Opcode.size width).code :: after) :
    operand (levels + 1) (Opcode.ref.code :: tail) = .error error rest :=
  (operand_ref levels _).trans <|
    (bind_of_ok (size?_of_ne other)).trans (bind_of_error failed)

/-- An operand fails at its first byte, or below a reference or a size. -/
theorem operand_eq_error (failed : operand (levels + 1) bytes = .error error rest) :
    (bytes = [] ∧ error = .unexpectedEnd) ∨
    (∃ marker : Opcode, marker.isMarker = false ∧ bytes = marker.code :: rest ∧
      error = .unknownMarker marker) ∨
    (∃ width tail, bytes = (Opcode.size width).code :: tail ∧
      operand levels tail = .error error rest) ∨
    (∃ width tail, bytes = Opcode.ref.code :: (Opcode.size width).code :: tail ∧
      operand levels tail = .error error rest) ∨
    ∃ tail, bytes = Opcode.ref.code :: tail ∧
      (∀ width after, tail ≠ (Opcode.size width).code :: after) ∧
      operand levels tail = .error error rest := by
  cases bytes with
  | nil =>
      cases failed
      exact .inl ⟨rfl, rfl⟩
  | cons byte tail =>
      refine .inr ?_
      rw [operand, next_bind] at failed
      cases symbol : Symbol.ofByte byte with
      | literal found =>
          rw [symbol] at failed
          cases failed
      | marker marker =>
          rw [symbol] at failed
          obtain rfl := Symbol.ofByte_eq_marker symbol
          cases marker with
          | top => cases failed
          | insPtr => cases failed
          | size width =>
              rcases bind_eq_error failed with below | ⟨_, _, -, ⟨⟩⟩
              exact .inr (.inl ⟨width, tail, rfl, below⟩)
          | ref =>
              by_cases sized : ∃ width after, tail = (Opcode.size width).code :: after
              · obtain ⟨width, after, rfl⟩ := sized
                have failed := (bind_of_ok (size?_size width after)).symm.trans failed
                rcases bind_eq_error failed with below | ⟨_, _, -, ⟨⟩⟩
                exact .inr (.inr (.inl ⟨width, after, rfl, below⟩))
              · have other : ∀ width after, tail ≠ (Opcode.size width).code :: after :=
                  fun width after next => sized ⟨width, after, next⟩
                have failed := (bind_of_ok (size?_of_ne other)).symm.trans failed
                rcases bind_eq_error failed with below | ⟨_, _, -, ⟨⟩⟩
                exact .inr (.inr (.inr ⟨tail, rfl, other, below⟩))
          | _ =>
              cases failed
              exact .inl ⟨_, rfl, rfl, rfl⟩

theorem operand_truncated (failed : operand levels bytes = .error .unexpectedEnd rest) :
    ∃ (suffix : List Byte) (whole : Operand), whole.Unambiguous ∧ whole.depth < levels ∧
      whole.encode = bytes ++ suffix := by
  induction levels generalizing bytes with
  | zero => cases failed
  | succ levels induction =>
      rcases operand_eq_error failed with
        ⟨rfl, -⟩ | ⟨_, -, -, ⟨⟩⟩ | ⟨width, tail, rfl, below⟩ | ⟨width, tail, rfl, below⟩ |
          ⟨tail, rfl, other, below⟩
      · exact ⟨[0], .literal 0, by decide, Nat.succ_pos levels, rfl⟩
      · obtain ⟨suffix, inner, valid, shallow, encoded⟩ := induction below
        exact ⟨suffix, .sized width inner, by simpa using valid,
          Nat.succ_lt_succ shallow, by simp [Operand.encode, encoded]⟩
      · obtain ⟨suffix, inner, valid, shallow, encoded⟩ := induction below
        exact ⟨suffix, .ref (some width) inner, by simpa using valid,
          Nat.succ_lt_succ shallow, by simp [Operand.encode, encoded]⟩
      · cases tail with
        | nil =>
            -- The end comes directly behind the reference; what completes it
            -- must not start with a size.
            cases levels with
            | zero => cases below
            | succ levels =>
                exact ⟨[0], .ref none (.literal 0), by decide,
                  Nat.succ_lt_succ (Nat.succ_pos levels), rfl⟩
        | cons byte tail =>
            obtain ⟨suffix, inner, valid, shallow, encoded⟩ := induction below
            have unsized : inner.isSized = false := by
              cases inner with
              | sized width inner =>
                  obtain ⟨rfl, -⟩ := List.cons.inj encoded
                  exact absurd rfl (other width tail)
              | _ => rfl
            exact ⟨suffix, .ref none inner, by simpa [unsized] using valid,
              Nat.succ_lt_succ shallow, by simp [Operand.encode, encoded]⟩

theorem operand_stuck (failed : operand levels bytes = .error error rest)
    (different : error ≠ .unexpectedEnd) :
    ∃ read, bytes = read ++ rest ∧
      ∀ suffix, ∃ left, operand levels (read ++ suffix) = .error error left := by
  induction levels generalizing bytes with
  | zero =>
      cases failed
      exact ⟨[], rfl, fun suffix => ⟨suffix, rfl⟩⟩
  | succ levels induction =>
      rcases operand_eq_error failed with
        ⟨rfl, rfl⟩ | ⟨marker, starts, rfl, rfl⟩ | ⟨width, tail, rfl, below⟩ |
          ⟨width, tail, rfl, below⟩ | ⟨tail, rfl, other, below⟩
      · exact absurd rfl different
      · exact ⟨[marker.code], rfl, fun suffix => ⟨suffix, operand_unknown levels starts suffix⟩⟩
      · obtain ⟨read, rfl, same⟩ := induction below
        refine ⟨(Opcode.size width).code :: read, rfl, fun suffix => ?_⟩
        obtain ⟨left, fails⟩ := same suffix
        exact ⟨left, operand_size_error fails width⟩
      · obtain ⟨read, rfl, same⟩ := induction below
        refine ⟨Opcode.ref.code :: (Opcode.size width).code :: read, rfl, fun suffix => ?_⟩
        obtain ⟨left, fails⟩ := same suffix
        exact ⟨left, operand_ref_size_error fails width⟩
      · obtain ⟨read, rfl, same⟩ := induction below
        refine ⟨Opcode.ref.code :: read, rfl, fun suffix => ?_⟩
        by_cases sized : ∃ width after, read ++ suffix = (Opcode.size width).code :: after
        · -- Nothing was read below the reference, and a size comes next.
          obtain ⟨width, after, next⟩ := sized
          cases read with
          | nil =>
              obtain ⟨left, fails⟩ := same after
              rw [List.nil_append] at next fails
              rw [next]
              exact ⟨left, operand_ref_size_error fails width⟩
          | cons byte read =>
              obtain ⟨rfl, -⟩ := List.cons.inj next
              exact absurd rfl (other width (read ++ rest))
        · obtain ⟨left, fails⟩ := same suffix
          exact ⟨left, operand_ref_error fails
            fun width after next => sized ⟨width, after, next⟩⟩

theorem operand_lengths (length : Nat) :
    operand levels bytes ≠ .error (.invalidLength length) rest := by
  intro failed
  induction levels generalizing bytes with
  | zero => cases failed
  | succ levels induction =>
      rcases operand_eq_error failed with
        ⟨-, ⟨⟩⟩ | ⟨_, -, -, ⟨⟩⟩ | ⟨_, _, -, below⟩ | ⟨_, _, -, below⟩ | ⟨_, -, -, below⟩
      · exact induction below
      · exact induction below
      · exact induction below

end Operand

theorem exact_address : Exact address where
  completes := ⟨[0], .literal 0, rfl⟩
  settled := by
    intro bytes decoded rest read
    obtain ⟨valid, rfl⟩ := address_eq_ok_iff.mp read
    exact ⟨decoded.encode, rfl, address_encode valid⟩
  truncated := by
    intro bytes rest failed
    obtain ⟨suffix, whole, valid, shallow, encoded⟩ := operand_truncated failed
    have read := address_encode ⟨valid, shallow⟩ []
    rw [List.append_nil, encoded] at read
    exact ⟨suffix, whole, read⟩
  stuck := operand_stuck
  lengths := operand_lengths

theorem byteOperand_marker {byte : Byte} {marker : Opcode}
    (symbol : Symbol.ofValueByte byte = .marker marker) (rest : List Byte) :
    byteOperand (byte :: rest) = address (byte :: rest) := by
  simp only [byteOperand, symbol]

/-- A byte operand fails at the end, or as an address does. -/
theorem byteOperand_eq_error {bytes rest : List Byte} {error : DecodeError}
    (failed : byteOperand bytes = .error error rest) :
    (bytes = [] ∧ error = .unexpectedEnd) ∨
      ∃ byte tail, bytes = byte :: tail ∧ address bytes = .error error rest ∧
        ∀ other, byteOperand (byte :: other) = address (byte :: other) := by
  cases bytes with
  | nil =>
      cases failed
      exact .inl ⟨rfl, rfl⟩
  | cons byte tail =>
      cases symbol : Symbol.ofValueByte byte with
      | literal found =>
          simp only [byteOperand, symbol] at failed
          cases failed
      | marker marker =>
          have same := byteOperand_marker symbol
          exact .inr ⟨byte, tail, rfl, (same tail).symm.trans failed, same⟩

theorem exact_byteOperand : Exact byteOperand where
  completes := ⟨[0], .literal 0, rfl⟩
  settled := by
    intro bytes decoded rest read
    obtain ⟨valid, rfl⟩ := byteOperand_eq_ok_iff.mp read
    exact ⟨decoded.encode, rfl, byteOperand_encode valid⟩
  truncated := by
    intro bytes rest failed
    rcases byteOperand_eq_error failed with ⟨rfl, -⟩ | ⟨byte, tail, rfl, ended, same⟩
    · exact ⟨[0], .literal 0, rfl⟩
    · obtain ⟨suffix, whole, read⟩ := exact_address.truncated ended
      exact ⟨suffix, whole, (same _).trans read⟩
  stuck := by
    intro bytes error rest failed different
    rcases byteOperand_eq_error failed with ⟨-, rfl⟩ | ⟨byte, tail, rfl, ended, same⟩
    · exact absurd rfl different
    · obtain ⟨read, spelled, fails⟩ := exact_address.stuck ended different
      cases read with
      | nil =>
          -- An address is not refused before its first byte.
          obtain ⟨left, ⟨⟩⟩ := fails [0]
      | cons first read =>
          obtain ⟨rfl, -⟩ := List.cons.inj spelled
          refine ⟨byte :: read, spelled, fun suffix => ?_⟩
          obtain ⟨left, fails⟩ := fails suffix
          exact ⟨left, (same _).trans fails⟩
  lengths := by
    intro bytes rest length failed
    rcases byteOperand_eq_error failed with ⟨-, ⟨⟩⟩ | ⟨byte, tail, rfl, ended, -⟩
    exact exact_address.lengths length ended

theorem exact_pushed : Exact pushed :=
  exact_next.bind fun _ => .pure _

theorem exact_body {opcode : Opcode} (starts : opcode.isMarker = false) :
    Exact (body opcode) := by
  cases opcode with
  | move => exact exact_address.bind fun _ => exact_address.bind fun _ => .pure _
  | load width => exact exact_address.bind fun _ => (exact_value width).bind fun _ => .pure _
  | jump => exact exact_address.bind fun _ => .pure _
  | push => exact exact_pushed.bind fun _ => .pure _
  | pop => exact .pure _
  | arithmetic op =>
      exact exact_byteOperand.bind fun _ => exact_byteOperand.bind fun _ => .pure _
  | compare condition =>
      exact exact_byteOperand.bind fun _ => exact_byteOperand.bind fun _ => .pure _
  | branch condition =>
      exact exact_byteOperand.bind fun _ => exact_byteOperand.bind fun _ =>
        exact_address.bind fun _ => .pure _
  | bitwise op => exact exact_address.bind fun _ => exact_byteOperand.bind fun _ => .pure _
  | invert => exact exact_address.bind fun _ => .pure _
  | top => cases starts
  | ref => cases starts
  | insPtr => cases starts
  | size width => cases starts

/-- An instruction fails at the end, at its first byte, or in its operands. -/
theorem instruction_eq_error {bytes rest : List Byte} {error : DecodeError}
    (failed : instruction bytes = .error error rest) :
    (bytes = [] ∧ error = .unexpectedEnd) ∨
    (∃ byte, bytes = byte :: rest ∧
      (error = .invalidOpcode byte ∨ ∃ marker, error = .misplacedMarker marker) ∧
      ∀ other, instruction (byte :: other) = .error error other) ∨
    ∃ (opcode : Opcode) (tail : List Byte), opcode.isMarker = false ∧
      bytes = opcode.code :: tail ∧ body opcode tail = .error error rest := by
  cases bytes with
  | nil =>
      cases failed
      exact .inl ⟨rfl, rfl⟩
  | cons byte tail =>
      refine .inr ?_
      cases symbol : Symbol.ofByte byte with
      | literal found =>
          obtain ⟨rfl, -⟩ := Symbol.ofByte_eq_literal symbol
          have refused : ∀ other,
              instruction (found :: other) = .error (.invalidOpcode found) other := by
            intro other
            rw [instruction, next_bind, symbol]
            rfl
          rw [refused] at failed
          cases failed
          exact .inl ⟨found, rfl, .inl rfl, refused⟩
      | marker opcode =>
          obtain rfl := Symbol.ofByte_eq_marker symbol
          rw [instruction_code] at failed
          cases starts : opcode.isMarker with
          | false => exact .inr ⟨opcode, tail, starts, rfl, failed⟩
          | true =>
              have refused : ∀ other, instruction (opcode.code :: other) =
                  .error (.misplacedMarker opcode) other := by
                intro other
                rw [instruction_code]
                cases opcode <;> first | rfl | cases starts
              rw [← instruction_code, refused] at failed
              cases failed
              exact .inl ⟨opcode.code, rfl, .inr ⟨opcode, rfl⟩, refused⟩

theorem exact_instruction : Exact instruction where
  completes := ⟨Instruction.pop.encode, .pop, rfl⟩
  settled := by
    intro bytes decoded rest read
    obtain ⟨valid, rfl⟩ := instruction_eq_ok read
    exact ⟨decoded.encode, rfl, instruction_encode valid⟩
  truncated := by
    intro bytes rest failed
    rcases instruction_eq_error failed with
      ⟨rfl, -⟩ | ⟨byte, -, ⟨⟨⟩⟩ | ⟨_, ⟨⟩⟩, -⟩ | ⟨opcode, tail, starts, rfl, ended⟩
    · exact ⟨Instruction.pop.encode, .pop, rfl⟩
    · obtain ⟨suffix, written, read⟩ := (exact_body starts).truncated ended
      exact ⟨suffix, written, (instruction_code opcode _).trans read⟩
  stuck := by
    intro bytes error rest failed different
    rcases instruction_eq_error failed with
      ⟨-, rfl⟩ | ⟨byte, rfl, -, refused⟩ | ⟨opcode, tail, starts, rfl, ended⟩
    · exact absurd rfl different
    · exact ⟨[byte], rfl, fun suffix => ⟨suffix, refused suffix⟩⟩
    · obtain ⟨read, rfl, fails⟩ := (exact_body starts).stuck ended different
      refine ⟨opcode.code :: read, rfl, fun suffix => ?_⟩
      obtain ⟨left, fails⟩ := fails suffix
      exact ⟨left, (instruction_code opcode _).trans fails⟩
  lengths := by
    intro bytes rest length failed
    rcases instruction_eq_error failed with
      ⟨-, ⟨⟩⟩ | ⟨byte, -, ⟨⟨⟩⟩ | ⟨_, ⟨⟩⟩, -⟩ | ⟨opcode, tail, starts, rfl, ended⟩
    exact (exact_body starts).lengths length ended

end Decode

end ByteMachine
