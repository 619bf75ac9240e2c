import ByteMachine.Machine.Resolve

namespace ByteMachine

/-! References that name no width. Such a reference reads one byte, so a byte mark can be left
out of a reference, however deep it stands. Only a destination keeps the mark, as a width to
write at. -/

/-- The second operand is the first, without the byte marks of some of its references. -/
inductive Operand.Unmarks : Operand → Operand → Prop where
  | refl (operand : Operand) : Unmarks operand operand
  | drop {inner plain : Operand} (unmarks : Unmarks inner plain) :
      Unmarks (.ref (some .byte) inner) (.ref none plain)
  | ref (width : Option Width) {inner plain : Operand} (unmarks : Unmarks inner plain) :
      Unmarks (.ref width inner) (.ref width plain)
  | sized (width : Width) {inner plain : Operand} (unmarks : Unmarks inner plain) :
      Unmarks (.sized width inner) (.sized width plain)

namespace Machine

open Operand (Unmarks)

variable {operand plain : Operand}

theorem address_of_unmarks (machine : Machine) (unmarks : Unmarks operand plain) :
    machine.address operand = machine.address plain := by
  induction unmarks with
  | refl operand => rfl
  | drop _ induction => simp only [address, induction]
  | ref width _ induction =>
      -- A wider reference is refused before what is inside it is looked at.
      cases width with
      | none => simp only [address, induction]
      | some width => cases width <;> simp only [address, induction]
  | sized width _ _ => rfl

theorem value_of_unmarks (machine : Machine) (unmarks : Unmarks operand plain) :
    machine.value operand = machine.value plain := by
  cases unmarks with
  | refl => rfl
  | drop unmarks => simp only [value, machine.address_of_unmarks unmarks, Option.getD]
  | ref width unmarks => simp only [value, machine.address_of_unmarks unmarks]
  | sized width unmarks => simp only [value, machine.address_of_unmarks unmarks]

theorem byte_of_unmarks (machine : Machine) (unmarks : Unmarks operand plain) :
    machine.byte operand = machine.byte plain := by
  simp only [byte, machine.value_of_unmarks unmarks]

theorem moveSource_of_unmarks (machine : Machine) (unmarks : Unmarks operand plain) :
    machine.moveSource operand = machine.moveSource plain := by
  have same := machine.value_of_unmarks unmarks
  cases unmarks with
  | refl => rfl
  | drop unmarks => exact same
  | ref width unmarks => exact same
  | sized width unmarks => exact same

/-- A destination shows a byte mark only where the outermost reference has it. -/
theorem destination_of_unmarks (machine : Machine) (unmarks : Unmarks operand plain) :
    machine.destination operand = machine.destination plain ∨
      ∃ address, machine.destination operand = .ok ⟨address, some .byte⟩ ∧
        machine.destination plain = .ok ⟨address, none⟩ := by
  cases unmarks with
  | refl => exact .inl rfl
  | drop unmarks =>
      simp only [destination, machine.address_of_unmarks unmarks]
      cases machine.address _ with
      | error cause => exact .inl rfl
      | ok pointer => exact .inr ⟨machine.memory.byteAt pointer, rfl, rfl⟩
  | ref width unmarks =>
      simp only [destination, machine.address_of_unmarks unmarks, true_or]
  | sized width unmarks =>
      simp only [destination, machine.address_of_unmarks unmarks, true_or]

/-- The byte mark of a reference makes no difference to what is read, nor to where a
destination is. -/
theorem byte_mark_interchangeable (machine : Machine) :
    (∀ operand plain, Unmarks operand plain →
      machine.address operand = machine.address plain ∧
      machine.value operand = machine.value plain ∧
      machine.byte operand = machine.byte plain ∧
      machine.moveSource operand = machine.moveSource plain ∧
      (machine.destination operand = machine.destination plain ∨
        ∃ address, machine.destination operand = .ok ⟨address, some .byte⟩ ∧
          machine.destination plain = .ok ⟨address, none⟩)) ∧
    ∀ inner, machine.value (.sized .byte inner) = machine.value (.ref none inner) := by
  constructor
  · intro operand plain unmarks
    exact ⟨machine.address_of_unmarks unmarks, machine.value_of_unmarks unmarks,
      machine.byte_of_unmarks unmarks, machine.moveSource_of_unmarks unmarks,
      machine.destination_of_unmarks unmarks⟩
  · intro inner
    rfl

/-- One mark of three is left out inside a word, and the outermost of two in a destination. A
word inside is refused with the mark and without it. -/
theorem byte_mark_interchangeable_nested :
    let machine : Machine :=
      { tape := ⟨[], 0⟩, memory := (Memory.zero.setByte 0x02 0x05).setByte 0x05 0x09 }
    let pointer : Operand := .ref (some .byte) (.literal 0x02)
    let wide : Operand := .ref (some .word) .top
    machine.value (.sized .word (.ref (some .byte) (.ref (some .byte) pointer))) =
        machine.value (.sized .word (.ref (some .byte) (.ref none pointer))) ∧
      machine.address (.ref (some .byte) wide) = machine.address (.ref none wide) ∧
      machine.address (.ref none wide) = .error (.unknownMarker (.size .word)) ∧
      machine.destination (.ref (some .byte) pointer) = .ok ⟨0x09, some .byte⟩ ∧
      machine.destination (.ref none pointer) = .ok ⟨0x09, none⟩ := by
  intro machine pointer wide
  have inside : Unmarks (.sized .word (.ref (some .byte) (.ref (some .byte) pointer)))
      (.sized .word (.ref (some .byte) (.ref none pointer))) :=
    .sized .word (.ref (some .byte) (.drop (.refl pointer)))
  have followed : machine.memory.byteAt (machine.memory.byteAt 0x02) = 0x09 := by
    decide +kernel
  have placed (width : Option Width) :
      machine.destination (.ref width pointer) = .ok ⟨0x09, width⟩ :=
    congrArg (fun address => Except.ok (Destination.mk address width)) followed
  exact ⟨((byte_mark_interchangeable machine).1 _ _ inside).2.1,
    ((byte_mark_interchangeable machine).1 _ _ (.drop (.refl wide))).1, rfl, placed _, placed _⟩

end Machine

end ByteMachine
