import ByteMachine.Decode

namespace ByteMachine

/-! A program on its tape: the bytes, which never change, and the cursor, the offset of the
next byte to read. -/

structure Tape where
  bytes : List Byte
  cursor : Nat := 0
  deriving DecidableEq, Repr

namespace Tape

def rest (tape : Tape) : List Byte :=
  tape.bytes.drop tape.cursor

def hasNext (tape : Tape) : Bool :=
  tape.cursor < tape.bytes.length

def peek? (tape : Tape) : Option Byte :=
  tape.rest.head?

def rewind (tape : Tape) : Tape :=
  { tape with cursor := 0 }

/-- Moves the cursor to an offset. The end of the program is a valid one. The tape that is
left is part of the answer, also if there is no such offset. -/
def seek (tape : Tape) (target : Nat) : Except DecodeError Unit × Tape :=
  if target ≤ tape.bytes.length then (.ok (), { tape with cursor := target })
  else (.error .unexpectedEnd, tape)

/-- The tape that a jump leaves if it succeeds. -/
def jump (tape : Tape) (target : Nat) : Except DecodeError Tape :=
  match tape.seek target with
  | (.ok _, moved) => .ok moved
  | (.error error, _) => .error error

/-- Runs a reader at the cursor and moves the cursor behind what it read, also if it
fails. -/
def read {α : Type} (tape : Tape) (reader : Decode α) : Except DecodeError α × Tape :=
  match reader tape.rest with
  | .ok result left =>
      (.ok result, { tape with cursor := tape.cursor + (tape.rest.length - left.length) })
  | .error error left =>
      (.error error, { tape with cursor := tape.cursor + (tape.rest.length - left.length) })

def next (tape : Tape) : Except DecodeError Byte × Tape :=
  tape.read Decode.next

def nextValue (tape : Tape) (width : Width) : Except DecodeError Value × Tape :=
  tape.read (Decode.value width)

def decode (tape : Tape) : Except DecodeError Instruction × Tape :=
  tape.read Decode.instruction

def text (tape : Tape) : String :=
  String.intercalate ", " (tape.bytes.map Byte.text)

/-- Two tapes hold the same program if their bytes agree; cursors do not matter. -/
def sameProgram (left right : Tape) : Bool :=
  left.bytes == right.bytes

@[simp] theorem length_rest (tape : Tape) :
    tape.rest.length = tape.bytes.length - tape.cursor := by
  simp [rest]

@[simp] theorem bytes_rewind (tape : Tape) : tape.rewind.bytes = tape.bytes := rfl

@[simp] theorem cursor_rewind (tape : Tape) : tape.rewind.cursor = 0 := rfl

theorem seek_of_le {tape : Tape} {target : Nat} (within : target ≤ tape.bytes.length) :
    tape.seek target = (.ok (), { tape with cursor := target }) :=
  if_pos within

theorem seek_of_lt {tape : Tape} {target : Nat} (beyond : tape.bytes.length < target) :
    tape.seek target = (.error .unexpectedEnd, tape) :=
  if_neg (Nat.not_le_of_lt beyond)

theorem jump_eq_ok_iff {tape moved : Tape} {target : Nat} :
    tape.jump target = .ok moved ↔
      target ≤ tape.bytes.length ∧ moved = { tape with cursor := target } := by
  unfold jump
  rcases Nat.lt_or_ge tape.bytes.length target with beyond | within
  · simp [seek_of_lt beyond, Nat.not_le_of_lt beyond]
  · simp [seek_of_le within, within, eq_comm]

@[simp] theorem bytes_read {α : Type} (tape : Tape) (reader : Decode α) :
    (tape.read reader).2.bytes = tape.bytes := by
  unfold read
  split <;> rfl

theorem cursor_read {α : Type} (tape : Tape) (reader : Decode α) :
    (tape.read reader).2.cursor =
      tape.cursor + (tape.rest.length - (Decode.unread (reader tape.rest)).length) := by
  unfold read
  split <;> rename_i read <;> simp [read, Decode.unread]

theorem next_of_rest {tape : Tape} {byte : Byte} {left : List Byte}
    (rest : tape.rest = byte :: left) :
    tape.next = (.ok byte, { tape with cursor := tape.cursor + 1 }) := by
  unfold next read
  rw [rest]
  simp [Decode.next]

theorem bytes_of_decode {tape moved : Tape} {answer : Except DecodeError Instruction}
    (found : tape.decode = (answer, moved)) : moved.bytes = tape.bytes := by
  rw [← tape.bytes_read Decode.instruction]
  exact congrArg (·.2.bytes) found.symm

theorem cursor_lt_of_decode {tape moved : Tape} {instruction : Instruction}
    (found : tape.decode = (.ok instruction, moved)) : tape.cursor < moved.cursor := by
  unfold decode read at found
  cases result : Decode.instruction tape.rest with
  | ok decoded left =>
      have shorter := Decode.length_lt_of_instruction result
      rw [result] at found
      cases found
      exact Nat.lt_add_of_pos_right (by omega)
  | error error left =>
      rw [result] at found
      cases found

theorem cursor_read_le {α : Type} {tape : Tape} (reader : Decode α)
    (within : tape.cursor ≤ tape.bytes.length) :
    (tape.read reader).2.cursor ≤ tape.bytes.length := by
  have total := tape.length_rest
  rw [cursor_read]
  omega

theorem read_moves {α : Type} {tape moved : Tape} {reader : Decode α}
    {result : Except DecodeError α} (done : tape.read reader = (result, moved))
    (within : tape.cursor ≤ tape.bytes.length) :
    moved.bytes = tape.bytes ∧ moved.cursor ≤ tape.bytes.length := by
  obtain rfl : (tape.read reader).2 = moved := congrArg Prod.snd done
  exact ⟨bytes_read tape reader, cursor_read_le reader within⟩

end Tape

end ByteMachine
