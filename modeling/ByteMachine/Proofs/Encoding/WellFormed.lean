import ByteMachine.Instruction

namespace ByteMachine

/-! Well-formed instructions: those whose bytes can be read back. What an operand
may be depends on its role, as the same byte is a marker in one place and a
literal in another. -/

theorem Opcode.not_mem_codes_iff {byte : Byte} :
    byte ∉ all.map code ↔ ofByte? byte = none := by
  rw [Option.eq_none_iff_forall_ne_some, List.mem_map]
  constructor
  · intro absent opcode found
    exact absent ⟨opcode, opcode.mem_all, (ofByte?_eq_some_iff.mp found).symm⟩
  · intro unknown ⟨opcode, _, same⟩
    subst same
    exact unknown opcode (ofByte?_code opcode)

namespace Operand

/-- The number of references and sizes in front of the innermost operand. A
reference and its own width count once. -/
def depth : Operand → Nat
  | literal _ => 0
  | top => 0
  | insPtr => 0
  | ref _ inner => inner.depth + 1
  | sized _ inner => inner.depth + 1

def literals : Operand → List Byte
  | literal byte => [byte]
  | top => []
  | insPtr => []
  | ref _ inner => inner.literals
  | sized _ inner => inner.literals

def isSized : Operand → Bool
  | sized _ _ => true
  | _ => false

/-- No reference without a width stands directly in front of a size, which would
be read as the width of the reference. -/
def SizesApart : Operand → Prop
  | literal _ => True
  | top => True
  | insPtr => True
  | ref width inner =>
      (width = none → inner.isSized = false) ∧ inner.SizesApart
  | sized _ inner => inner.SizesApart

/-- No literal is a byte of the opcode table, and sizes stand apart from
references without a width. -/
structure Unambiguous (operand : Operand) : Prop where
  literals : ∀ byte ∈ operand.literals, byte ∉ Opcode.all.map Opcode.code
  apart : operand.SizesApart

structure IsAddress (operand : Operand) : Prop extends Unambiguous operand where
  shallow : operand.depth < depthLimit

/-- A size cannot start the operand, but its byte may be a literal, as may that
of any opcode but the three value markers. -/
def IsByteOperand : Operand → Prop
  | literal byte =>
      byte ∉ [Opcode.top.code, Opcode.ref.code, Opcode.insPtr.code]
  | top => True
  | insPtr => True
  | ref width inner => (ref width inner).IsAddress
  | sized _ _ => False

def IsPushed : Operand → Prop
  | literal byte => byte ≠ Opcode.insPtr.code
  | insPtr => True
  | _ => False

@[simp] theorem unambiguous_literal {byte : Byte} :
    (literal byte).Unambiguous ↔ Opcode.ofByte? byte = none := by
  rw [← Opcode.not_mem_codes_iff]
  exact ⟨fun valid => valid.literals byte (by simp [literals]),
    fun absent => ⟨by simpa [literals] using absent, trivial⟩⟩

@[simp] theorem unambiguous_top : top.Unambiguous :=
  ⟨by simp [literals], trivial⟩

@[simp] theorem unambiguous_insPtr : insPtr.Unambiguous :=
  ⟨by simp [literals], trivial⟩

@[simp] theorem unambiguous_ref {width : Option Width} {inner : Operand} :
    (ref width inner).Unambiguous ↔
      (width = none → inner.isSized = false) ∧ inner.Unambiguous :=
  ⟨fun valid => ⟨valid.apart.1, valid.literals, valid.apart.2⟩,
    fun valid => ⟨valid.2.literals, valid.1, valid.2.apart⟩⟩

@[simp] theorem unambiguous_sized {width : Width} {inner : Operand} :
    (sized width inner).Unambiguous ↔ inner.Unambiguous :=
  ⟨fun valid => ⟨valid.literals, valid.apart⟩,
    fun valid => ⟨valid.literals, valid.apart⟩⟩

theorem isAddress_iff {operand : Operand} :
    operand.IsAddress ↔ operand.Unambiguous ∧ operand.depth < depthLimit :=
  ⟨fun valid => ⟨valid.toUnambiguous, valid.shallow⟩,
    fun valid => ⟨valid.1, valid.2⟩⟩

instance decidableSizesApart : (operand : Operand) → Decidable operand.SizesApart
  | literal _ => isTrue trivial
  | top => isTrue trivial
  | insPtr => isTrue trivial
  | ref width inner =>
      have := decidableSizesApart inner
      inferInstanceAs (Decidable
        ((width = none → inner.isSized = false) ∧ inner.SizesApart))
  | sized _ inner => decidableSizesApart inner

theorem unambiguous_iff {operand : Operand} :
    operand.Unambiguous ↔
      operand.literals.all (fun byte => (Opcode.ofByte? byte).isNone) = true ∧
        operand.SizesApart := by
  simp only [List.all_eq_true, Option.isNone_iff_eq_none, ← Opcode.not_mem_codes_iff]
  exact ⟨fun valid => ⟨valid.literals, valid.apart⟩,
    fun valid => ⟨valid.1, valid.2⟩⟩

-- The literals are looked up one by one, not all bytes in the literals.
instance (operand : Operand) : Decidable operand.Unambiguous :=
  decidable_of_iff _ unambiguous_iff.symm

instance (operand : Operand) : Decidable operand.IsAddress :=
  decidable_of_iff _ isAddress_iff.symm

instance : (operand : Operand) → Decidable operand.IsByteOperand
  | literal byte => inferInstanceAs (Decidable (byte ∉ _))
  | top => isTrue trivial
  | insPtr => isTrue trivial
  | ref width inner => inferInstanceAs (Decidable (ref width inner).IsAddress)
  | sized _ _ => isFalse id

instance : (operand : Operand) → Decidable operand.IsPushed
  | literal byte => inferInstanceAs (Decidable (byte ≠ _))
  | top => isFalse id
  | insPtr => isTrue trivial
  | ref _ _ => isFalse id
  | sized _ _ => isFalse id

end Operand

namespace Instruction

def WellFormed : Instruction → Prop
  | move destination source => destination.IsAddress ∧ source.IsAddress
  | load destination _ => destination.IsAddress
  | jump target => target.IsAddress
  | push source => source.IsPushed
  | pop => True
  | arithmetic _ left right => left.IsByteOperand ∧ right.IsByteOperand
  | compare _ left right => left.IsByteOperand ∧ right.IsByteOperand
  | branch _ left right target =>
      left.IsByteOperand ∧ right.IsByteOperand ∧ target.IsAddress
  | bitwise _ destination source => destination.IsAddress ∧ source.IsByteOperand
  | invert destination => destination.IsAddress

instance : (instruction : Instruction) → Decidable instruction.WellFormed
  | move destination source =>
      inferInstanceAs (Decidable (destination.IsAddress ∧ source.IsAddress))
  | load destination _ => inferInstanceAs (Decidable destination.IsAddress)
  | jump target => inferInstanceAs (Decidable target.IsAddress)
  | push source => inferInstanceAs (Decidable source.IsPushed)
  | pop => isTrue trivial
  | arithmetic _ left right =>
      inferInstanceAs (Decidable (left.IsByteOperand ∧ right.IsByteOperand))
  | compare _ left right =>
      inferInstanceAs (Decidable (left.IsByteOperand ∧ right.IsByteOperand))
  | branch _ left right target =>
      inferInstanceAs (Decidable
        (left.IsByteOperand ∧ right.IsByteOperand ∧ target.IsAddress))
  | bitwise _ destination source =>
      inferInstanceAs (Decidable (destination.IsAddress ∧ source.IsByteOperand))
  | invert destination => inferInstanceAs (Decidable destination.IsAddress)

end Instruction

end ByteMachine
