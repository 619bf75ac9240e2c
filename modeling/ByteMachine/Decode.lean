import ByteMachine.DecodeError
import ByteMachine.Instruction

namespace ByteMachine

/-! Readers of byte lists. A reader leaves the bytes that it has not read, also when it
fails, so that the place of a failure is known. -/

def Value.decode (bytes : List Byte) : Except DecodeError Value :=
  match ofBytes? bytes with
  | some value => .ok value
  | none => .error (.invalidLength bytes.length)

@[simp] theorem Value.decode_bytes (value : Value) : decode value.bytes = .ok value := by
  simp [decode]

def Opcode.decode (byte : Byte) : Except DecodeError Opcode :=
  match ofByte? byte with
  | some opcode => .ok opcode
  | none => .error (.invalidOpcode byte)

abbrev Decode := EStateM DecodeError (List Byte)

namespace Decode

def next : Decode Byte
  | [] => .error .unexpectedEnd []
  | byte :: rest => .ok byte rest

/-- The value in the next bytes. Nothing is read if there are too few. -/
def value (width : Width) : Decode Value := fun bytes =>
  if width.size ≤ bytes.length then
    match Value.decode (bytes.take width.size) with
    | .ok value => .ok value (bytes.drop width.size)
    | .error error => .error error bytes
  else
    .error .unexpectedEnd bytes

def size? : Decode (Option Width)
  | [] => .ok none []
  | byte :: rest =>
      match Symbol.ofByte byte with
      | .marker (.size width) => .ok (some width) rest
      | _ => .ok none (byte :: rest)

/-- An operand of at most `levels` nested operands. The limit is tested before a byte
is read. -/
def operand : (levels : Nat) → Decode Operand
  | 0 => throw .operandTooDeep
  | levels + 1 => do
      match Symbol.ofByte (← next) with
      | .literal byte => return .literal byte
      | .marker .top => return .top
      | .marker .insPtr => return .insPtr
      | .marker .ref =>
          let width ← size?
          let inner ← operand levels
          return .ref width inner
      | .marker (.size width) =>
          let inner ← operand levels
          return .sized width inner
      | .marker opcode => throw (.unknownMarker opcode)

def address : Decode Operand :=
  operand Operand.depthLimit

/-- An operand that names a byte: a value marker starts an operand, and any other byte is
a literal, opcodes and size markers included. -/
def byteOperand : Decode Operand
  | [] => .error .unexpectedEnd []
  | byte :: rest =>
      match Symbol.ofValueByte byte with
      | .marker _ => address (byte :: rest)
      | .literal byte => .ok (.literal byte) rest

/-- The operand of a push: one byte, a literal unless it marks the instruction pointer. -/
def pushed : Decode Operand := do
  let byte ← next
  return if byte = Opcode.insPtr.code then .insPtr else .literal byte

def body : Opcode → Decode Instruction
  | .move => do
      let destination ← address
      let source ← address
      return .move destination source
  | .load width => do
      let destination ← address
      let immediate ← value width
      return .load destination immediate
  | .jump => do
      let target ← address
      return .jump target
  | .push => do
      let source ← pushed
      return .push source
  | .pop => return .pop
  | .arithmetic op => do
      let left ← byteOperand
      let right ← byteOperand
      return .arithmetic op left right
  | .compare condition => do
      let left ← byteOperand
      let right ← byteOperand
      return .compare condition left right
  | .branch condition => do
      let left ← byteOperand
      let right ← byteOperand
      let target ← address
      return .branch condition left right target
  | .bitwise op => do
      let destination ← address
      let source ← byteOperand
      return .bitwise op destination source
  | .invert => do
      let destination ← address
      return .invert destination
  | .top => throw (.misplacedMarker .top)
  | .ref => throw (.misplacedMarker .ref)
  | .insPtr => throw (.misplacedMarker .insPtr)
  | .size width => throw (.misplacedMarker (.size width))

def instruction : Decode Instruction := do
  match Symbol.ofByte (← next) with
  | .literal byte => throw (.invalidOpcode byte)
  | .marker opcode => body opcode

/-! Readers only ever drop bytes from the front. -/

def unread {α : Type} : EStateM.Result DecodeError (List Byte) α → List Byte
  | .ok _ rest => rest
  | .error _ rest => rest

/-- A reader leaves a suffix of its input. -/
def Forward {α : Type} (reader : Decode α) : Prop :=
  ∀ bytes, unread (reader bytes) <:+ bytes

theorem Forward.pure {α : Type} (result : α) : Forward (pure result) :=
  fun bytes => List.suffix_refl bytes

theorem Forward.throw {α : Type} (error : DecodeError) :
    Forward (throw error : Decode α) :=
  fun bytes => List.suffix_refl bytes

theorem Forward.bind {α β : Type} {reader : Decode α} {after : α → Decode β}
    (first : Forward reader) (second : ∀ result, Forward (after result)) :
    Forward (reader >>= after) := by
  intro bytes
  have start := first bytes
  change unread (EStateM.bind reader after bytes) <:+ bytes
  unfold EStateM.bind
  cases read : reader bytes with
  | ok result rest =>
      rw [read] at start
      exact (second result rest).trans start
  | error error rest =>
      rw [read] at start
      exact start

theorem forward_next : Forward next
  | [] => List.suffix_refl []
  | byte :: rest => List.suffix_cons byte rest

theorem forward_value (width : Width) : Forward (value width) := by
  intro bytes
  unfold value
  split
  · split
    · exact List.drop_suffix _ _
    · exact List.suffix_refl bytes
  · exact List.suffix_refl bytes

theorem forward_size? : Forward size? := by
  intro bytes
  unfold size?
  split
  · exact List.suffix_refl []
  · split
    · exact List.suffix_cons _ _
    · exact List.suffix_refl _

theorem forward_operand (levels : Nat) : Forward (operand levels) := by
  induction levels with
  | zero => exact .throw _
  | succ levels ih =>
      refine .bind forward_next fun byte => ?_
      split
      · exact .pure _
      · exact .pure _
      · exact .pure _
      · exact .bind forward_size? fun _ => .bind ih fun _ => .pure _
      · exact .bind ih fun _ => .pure _
      · exact .throw _

theorem forward_address : Forward address :=
  forward_operand _

theorem forward_byteOperand : Forward byteOperand := by
  intro bytes
  unfold byteOperand
  split
  · exact List.suffix_refl []
  · split
    · exact forward_address _
    · exact List.suffix_cons _ _

theorem forward_pushed : Forward pushed :=
  .bind forward_next fun _ => .pure _

theorem forward_body (opcode : Opcode) : Forward (body opcode) := by
  cases opcode with
  | move => exact .bind forward_address fun _ => .bind forward_address fun _ => .pure _
  | load width =>
      exact .bind forward_address fun _ => .bind (forward_value width) fun _ => .pure _
  | jump => exact .bind forward_address fun _ => .pure _
  | push => exact .bind forward_pushed fun _ => .pure _
  | pop => exact .pure _
  | arithmetic op =>
      exact .bind forward_byteOperand fun _ => .bind forward_byteOperand fun _ => .pure _
  | compare condition =>
      exact .bind forward_byteOperand fun _ => .bind forward_byteOperand fun _ => .pure _
  | branch condition =>
      exact .bind forward_byteOperand fun _ => .bind forward_byteOperand fun _ =>
        .bind forward_address fun _ => .pure _
  | bitwise op =>
      exact .bind forward_address fun _ => .bind forward_byteOperand fun _ => .pure _
  | invert => exact .bind forward_address fun _ => .pure _
  | top => exact .throw _
  | ref => exact .throw _
  | insPtr => exact .throw _
  | size width => exact .throw _

theorem instruction_nil : instruction [] = .error .unexpectedEnd [] := rfl

theorem unread_instruction_cons (byte : Byte) (rest : List Byte) :
    unread (instruction (byte :: rest)) <:+ rest := by
  change unread ((match Symbol.ofByte byte with
    | .literal byte => throw (.invalidOpcode byte)
    | .marker opcode => body opcode : Decode Instruction) rest) <:+ rest
  cases Symbol.ofByte byte with
  | literal byte => exact List.suffix_refl rest
  | marker opcode => exact forward_body opcode rest

theorem length_lt_of_instruction {bytes rest : List Byte} {decoded : Instruction}
    (read : instruction bytes = .ok decoded rest) : rest.length < bytes.length := by
  cases bytes with
  | nil => cases read
  | cons byte bytes =>
      have suffix := unread_instruction_cons byte bytes
      rw [read] at suffix
      exact Nat.lt_succ_of_le suffix.length_le

end Decode

end ByteMachine
