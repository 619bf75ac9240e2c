import ByteMachine.Proofs.Encoding.Decode

namespace ByteMachine.Tape

/-! Calls on a tape. None of them changes the bytes or moves the cursor behind the end, and a
value is read as its bytes would be, one by one. -/

/-- A call on a tape. There is one call for a value of each width. -/
inductive Call where
  | next
  | peek
  | jump (target : Nat)
  | rewind
  | value (width : Width)
  | decode

/-- The tape behind a call, whether the call succeeds or fails. -/
def Call.leaves (tape : Tape) : Call → Tape
  | next => tape.next.2
  | peek => tape
  | jump target => (tape.seek target).2
  | rewind => tape.rewind
  | value width => (tape.nextValue width).2
  | decode => tape.decode.2

variable {tape left moved : Tape} {error : DecodeError} {width wide : Width} {value : Value}

def after (tape : Tape) (calls : List Call) : Tape :=
  calls.foldl Call.leaves tape

theorem Call.leaves_within (call : Call) (within : tape.cursor ≤ tape.bytes.length) :
    (call.leaves tape).bytes = tape.bytes ∧
      (call.leaves tape).cursor ≤ tape.bytes.length := by
  cases call with
  | next => exact read_moves rfl within
  | peek => exact ⟨rfl, within⟩
  | jump target =>
      rw [leaves]
      rcases Nat.lt_or_ge tape.bytes.length target with beyond | inside
      · rw [seek_of_lt beyond]
        exact ⟨rfl, within⟩
      · rw [seek_of_le inside]
        exact ⟨rfl, inside⟩
  | rewind => exact ⟨rfl, Nat.zero_le _⟩
  | value width => exact read_moves rfl within
  | decode => exact read_moves rfl within

theorem after_within (calls : List Call) (within : tape.cursor ≤ tape.bytes.length) :
    (tape.after calls).bytes = tape.bytes ∧
      (tape.after calls).cursor ≤ tape.bytes.length := by
  induction calls generalizing tape with
  | nil => exact ⟨rfl, within⟩
  | cons call calls induction =>
      obtain ⟨same, inside⟩ := call.leaves_within within
      rw [← same] at inside ⊢
      exact induction inside

theorem seek_eq_error_iff {target : Nat} :
    tape.seek target = (.error error, left) ↔
      tape.bytes.length < target ∧ error = .unexpectedEnd ∧ left = tape := by
  rcases Nat.lt_or_ge tape.bytes.length target with beyond | within
  · simp [seek_of_lt beyond, beyond, eq_comm]
  · simp [seek_of_le within, Nat.not_lt_of_le within]

theorem read_of_append {α : Type} {reader : Decode α} {result : α} {used rest : List Byte}
    (spelled : tape.rest = used ++ rest) (read : reader tape.rest = .ok result rest) :
    tape.read reader = (.ok result, { tape with cursor := tape.cursor + used.length }) := by
  have length := congrArg List.length spelled
  rw [List.length_append] at length
  unfold Tape.read
  rw [read]
  simp only
  rw [show tape.rest.length - rest.length = used.length by omega]

theorem nextValue_of_lt (short : tape.rest.length < width.size) :
    tape.nextValue width = (.error .unexpectedEnd, tape) := by
  rcases Decode.value_cases width tape.rest with ⟨found, rest, rfl, spelled, -⟩ | ⟨-, ended⟩
  · rw [spelled, List.length_append, found.length_bytes] at short
    omega
  · simp [nextValue, read, ended]

theorem nextValue_of_bytes {rest : List Byte} (spelled : tape.rest = value.bytes ++ rest) :
    tape.nextValue value.width =
      (.ok value, { tape with cursor := tape.cursor + value.width.size }) := by
  rw [← value.length_bytes]
  refine read_of_append spelled ?_
  rw [spelled]
  exact Decode.value_bytes value rest

theorem exists_value_of_le (enough : width.size ≤ tape.rest.length) :
    ∃ (value : Value) (rest : List Byte),
      value.width = width ∧ tape.rest = value.bytes ++ rest := by
  rcases Decode.value_cases width tape.rest with ⟨value, rest, wide, spelled, -⟩ | ⟨short, -⟩
  · exact ⟨value, rest, wide, spelled⟩
  · omega

theorem nextValue_eq_error_iff :
    tape.nextValue width = (.error error, left) ↔
      tape.rest.length < width.size ∧ error = .unexpectedEnd ∧ left = tape := by
  constructor
  · intro failed
    rcases Nat.lt_or_ge tape.rest.length width.size with short | enough
    · rw [nextValue_of_lt short] at failed
      cases failed
      exact ⟨short, rfl, rfl⟩
    · obtain ⟨value, rest, rfl, spelled⟩ := exists_value_of_le enough
      rw [nextValue_of_bytes spelled] at failed
      cases failed
  · rintro ⟨short, rfl, rfl⟩
    exact nextValue_of_lt short

theorem nextValue_eq_ok (read : tape.nextValue width = (.ok value, moved)) :
    value.width = width ∧ moved = { tape with cursor := tape.cursor + width.size } ∧
      ∃ rest, tape.rest = value.bytes ++ rest := by
  rcases Nat.lt_or_ge tape.rest.length width.size with short | enough
  · rw [nextValue_of_lt short] at read
    cases read
  · obtain ⟨value, rest, rfl, spelled⟩ := exists_value_of_le enough
    rw [nextValue_of_bytes spelled] at read
    cases read
    exact ⟨rfl, rfl, rest, spelled⟩

theorem rest_of_append {used rest : List Byte} (spelled : tape.rest = used ++ rest) :
    Tape.rest { tape with cursor := tape.cursor + used.length } = rest := by
  rw [Tape.rest, ← List.drop_drop]
  change tape.rest.drop used.length = rest
  rw [spelled, List.drop_left]

/-- Calls for the next byte, one after the other. The first that fails is the last. -/
def nexts (tape : Tape) : (count : Nat) → Except DecodeError (List Byte) × Tape
  | 0 => (.ok [], tape)
  | count + 1 =>
      match tape.next with
      | (.error error, moved) => (.error error, moved)
      | (.ok byte, moved) =>
          let (bytes, last) := moved.nexts count
          (bytes.map (byte :: ·), last)

theorem nexts_of_append {used rest : List Byte} (spelled : tape.rest = used ++ rest) :
    tape.nexts used.length = (.ok used, { tape with cursor := tape.cursor + used.length }) := by
  induction used generalizing tape with
  | nil => rfl
  | cons byte used induction =>
      have later : Tape.rest { tape with cursor := tape.cursor + 1 } = used ++ rest :=
        @rest_of_append tape [byte] (used ++ rest) spelled
      rw [List.length_cons, nexts, next_of_rest spelled]
      simp only
      rw [induction later]
      simp [Except.map, Nat.add_assoc, Nat.add_comm 1]

theorem nexts_of_nextValue (read : tape.nextValue width = (.ok value, moved)) :
    tape.nexts width.size = (.ok value.bytes, moved) := by
  obtain ⟨rfl, rfl, rest, spelled⟩ := nextValue_eq_ok read
  rw [← value.length_bytes]
  exact nexts_of_append spelled

/-- A value of twice a width is two values of that width. -/
theorem nextValue_double (double : width.double? = some wide)
    (enough : 2 * width.size ≤ tape.rest.length) :
    ∃ high low value middle last, tape.nextValue width = (.ok high, middle) ∧
      middle.nextValue width = (.ok low, last) ∧ high.pair? low = some value ∧
      tape.nextValue wide = (.ok value, last) := by
  obtain ⟨high, behind, rfl, front⟩ :=
    exists_value_of_le (show width.size ≤ tape.rest.length by omega)
  have readHigh := nextValue_of_bytes front
  have middle := rest_of_append front
  rw [front, List.length_append, high.length_bytes] at enough
  rw [high.length_bytes] at middle
  obtain ⟨low, rest, same, back⟩ := exists_value_of_le
    (show high.width.size ≤ (Tape.rest { tape with
      cursor := tape.cursor + high.width.size }).length by rw [middle]; omega)
  have readLow := nextValue_of_bytes back
  obtain ⟨value, paired, rfl, side⟩ := Value.exists_pair same.symm double
  have whole : tape.rest = value.bytes ++ rest := by
    rw [side, List.append_assoc, ← back, middle, front]
  have read := nextValue_of_bytes whole
  rw [Width.size_double double] at read
  rw [same] at readLow
  refine ⟨high, low, value, _, _, readHigh, readLow, paired, ?_⟩
  rw [read]
  simp [Nat.two_mul, Nat.add_assoc]

/-- Whatever is called on a tape, its bytes are kept and its cursor stays within them. A jump
or a value fails only for want of bytes, and leaves the tape as it was. A value is what as many
calls for a byte return, and a value of twice a width is two of that width. -/
theorem call_laws (within : tape.cursor ≤ tape.bytes.length) :
    (∀ calls, (tape.after calls).bytes = tape.bytes ∧
      (tape.after calls).cursor ≤ tape.bytes.length) ∧
    (∀ target error left, tape.seek target = (.error error, left) ↔
      tape.bytes.length < target ∧ error = .unexpectedEnd ∧ left = tape) ∧
    (∀ width error left, tape.nextValue width = (.error error, left) ↔
      tape.rest.length < width.size ∧ error = .unexpectedEnd ∧ left = tape) ∧
    (∀ width value moved, tape.nextValue width = (.ok value, moved) →
      ∃ bytes, tape.nexts width.size = (.ok bytes, moved) ∧ value.width = width ∧
        value.bytes = bytes ∧ value.toNat = ofBigEndian bytes) ∧
    ∀ width wide, width.double? = some wide → 2 * width.size ≤ tape.rest.length →
      ∃ high low value middle last, tape.nextValue width = (.ok high, middle) ∧
        middle.nextValue width = (.ok low, last) ∧ high.pair? low = some value ∧
        tape.nextValue wide = (.ok value, last) := by
  refine ⟨fun calls => after_within calls within, ?_, ?_, ?_, ?_⟩
  · intro target error left
    exact seek_eq_error_iff
  · intro width error left
    exact nextValue_eq_error_iff
  · intro width value moved read
    exact ⟨value.bytes, nexts_of_nextValue read, (nextValue_eq_ok read).1, rfl, rfl⟩
  · intro width wide double enough
    exact nextValue_double double enough

/-- Three bytes are left: enough for a word, too few for a double word. -/
theorem call_laws_three_left :
    let tape : Tape := ⟨[0xff, 0xc0, 0x90, 0xcc], 1⟩
    let value := Value.word 0xc090
    let moved : Tape := { tape with cursor := 3 }
    tape.cursor ≤ tape.bytes.length ∧
      tape.after [.jump 5, .value .doubleWord, .rewind, .decode, .peek] = moved ∧
      moved.bytes = tape.bytes ∧ moved.cursor ≤ tape.bytes.length ∧
      tape.seek 5 = (.error .unexpectedEnd, tape) ∧
      tape.nextValue .doubleWord = (.error .unexpectedEnd, tape) ∧
      tape.nextValue .word = (.ok value, moved) ∧
      (∃ bytes, tape.nexts 2 = (.ok bytes, moved) ∧ value.toNat = ofBigEndian bytes) ∧
      ∃ high low value middle last, tape.nextValue .byte = (.ok high, middle) ∧
        middle.nextValue .byte = (.ok low, last) ∧ high.pair? low = some value ∧
        tape.nextValue .word = (.ok value, last) := by
  intro tape value moved
  have within : tape.cursor ≤ tape.bytes.length := by decide
  have laws := call_laws within
  have called : tape.after [.jump 5, .value .doubleWord, .rewind, .decode, .peek] = moved := by
    decide +kernel
  obtain ⟨kept, inside⟩ := laws.1 [.jump 5, .value .doubleWord, .rewind, .decode, .peek]
  rw [called] at kept inside
  have read : tape.nextValue .word = (.ok value, moved) :=
    @nextValue_of_bytes tape value [0xcc] (by decide +kernel)
  obtain ⟨bytes, taken, -, -, number⟩ := laws.2.2.2.1 _ _ _ read
  exact ⟨within, called, kept, inside, (laws.2.1 5 _ _).mpr ⟨by decide, rfl, rfl⟩,
    (laws.2.2.1 .doubleWord _ _).mpr ⟨by decide, rfl, rfl⟩, read, ⟨bytes, taken, number⟩,
    laws.2.2.2.2 .byte .word rfl (by decide)⟩

end ByteMachine.Tape
