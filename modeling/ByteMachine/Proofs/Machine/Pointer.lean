import Mathlib.Logic.Function.Iterate
import ByteMachine.Machine.Resolve
import ByteMachine.Proofs.Answer
import ByteMachine.Proofs.Memory

namespace ByteMachine

/-! How an operand becomes an address or a byte. References to a byte are followed from the
inside out. The outermost cell of another kind is no address, whatever is inside it. -/

namespace Operand

/-- The operand is a number of references to a byte, each in the one before, and then the
second operand. -/
inductive Pointers : Nat → Operand → Operand → Prop where
  | here (operand : Operand) : Pointers 0 operand operand
  | ref {count : Nat} {width : Option Width} {inner target : Operand}
      (single : width = none ∨ width = some .byte) (pointers : Pointers count inner target) :
      Pointers (count + 1) (.ref width inner) target

/-- Whether there is no further operand inside. -/
def isLeaf : Operand → Bool
  | literal _ | top | insPtr => true
  | ref _ _ | sized _ _ => false

/-- The width of a cell that is no address. -/
def wide? : Operand → Option Width
  | ref none _ | ref (some .byte) _ => none
  | ref (some width) _ => some width
  | sized width _ => some width
  | literal _ | top | insPtr => none

/-- The width of a cell, and the operand that says where it is. -/
def cell? : Operand → Option (Width × Operand)
  | ref width inner => some (width.getD .byte, inner)
  | sized width inner => some (width, inner)
  | literal _ | top | insPtr => none

/-- Every operand is pointers around a leaf, or around a cell that is no address. -/
theorem exists_pointers (operand : Operand) :
    ∃ count target, Pointers count operand target ∧
      (target.isLeaf = true ∨ ∃ width, target.wide? = some width) := by
  induction operand with
  | literal byte => exact ⟨0, _, .here _, .inl rfl⟩
  | top => exact ⟨0, _, .here _, .inl rfl⟩
  | insPtr => exact ⟨0, _, .here _, .inl rfl⟩
  | ref width inner induction =>
      obtain ⟨count, target, pointers, ends⟩ := induction
      cases width with
      | none => exact ⟨count + 1, target, .ref (.inl rfl) pointers, ends⟩
      | some width =>
          cases width with
          | byte => exact ⟨count + 1, target, .ref (.inr rfl) pointers, ends⟩
          | word => exact ⟨0, _, .here _, .inr ⟨.word, rfl⟩⟩
          | doubleWord => exact ⟨0, _, .here _, .inr ⟨.doubleWord, rfl⟩⟩
          | quadWord => exact ⟨0, _, .here _, .inr ⟨.quadWord, rfl⟩⟩
  | sized width inner induction => exact ⟨0, _, .here _, .inr ⟨width, rfl⟩⟩

end Operand

namespace Machine

open Operand (Pointers)

variable {machine : Machine} {operand inner leaf target : Operand} {count : Nat}
  {width : Width} {address byte : Byte} {cause : Fault.Cause}

/-- The byte that a leaf stands for. -/
inductive LeafByte (machine : Machine) : Operand → Byte → Prop where
  | literal (byte : Byte) : LeafByte machine (.literal byte) byte
  | top : LeafByte machine .top machine.stack.top
  | insPtr {byte : Byte} (same : byte.toNat = machine.tape.cursor) :
      LeafByte machine .insPtr byte

theorem insPtr_eq_ok_iff :
    machine.insPtr = .ok byte ↔ byte.toNat = machine.tape.cursor := by
  unfold insPtr
  by_cases small : machine.tape.cursor < 256
  · rw [if_pos small]
    constructor
    · rintro ⟨⟩
      exact UInt8.toNat_ofNat_of_lt small
    · intro same
      rw [← same, UInt8.ofNat_toNat]
  · have bound := byte.toNat_lt
    rw [if_neg small]
    constructor
    · nofun
    · omega

theorem insPtr_eq_error_iff :
    machine.insPtr = .error cause ↔
      255 < machine.tape.cursor ∧ cause = .insPtrOverflow machine.tape.cursor := by
  unfold insPtr
  by_cases small : machine.tape.cursor < 256
  · rw [if_pos small]
    constructor
    · nofun
    · omega
  · rw [if_neg small]
    constructor
    · rintro ⟨⟩
      exact ⟨Nat.le_of_not_lt small, rfl⟩
    · rintro ⟨-, rfl⟩
      rfl

theorem LeafByte.address_eq (stands : machine.LeafByte leaf byte) :
    machine.address leaf = .ok byte := by
  cases stands with
  | literal byte => rfl
  | top => rfl
  | insPtr same => exact insPtr_eq_ok_iff.mpr same

theorem address_leaf_eq_error_iff (leaves : leaf.isLeaf = true) :
    machine.address leaf = .error cause ↔
      leaf = .insPtr ∧ 255 < machine.tape.cursor ∧
        cause = .insPtrOverflow machine.tape.cursor := by
  cases leaf with
  | literal byte => simp [address]
  | top => simp [address]
  | insPtr => simpa [address] using insPtr_eq_error_iff
  | ref width inner => cases leaves
  | sized width inner => cases leaves

/-- One look-up for each pointer, the innermost first. -/
theorem address_of_pointers (pointers : Pointers count operand target) :
    machine.address operand = (machine.address target).map machine.memory.byteAt^[count] := by
  induction pointers with
  | here operand => cases machine.address operand <;> rfl
  | ref single pointers induction =>
      rename_i count width inner target
      have followed : machine.address (.ref width inner) =
          (machine.address inner).map machine.memory.byteAt := by
        rcases single with rfl | rfl
        · rfl
        · rfl
      rw [followed, induction, Function.iterate_succ']
      cases machine.address target <;> rfl

theorem address_of_wide (wide : target.wide? = some width) :
    machine.address target = .error (.unknownMarker (.size width)) := by
  cases target with
  | literal byte => cases wide
  | top => cases wide
  | insPtr => cases wide
  | ref named inner =>
      cases named with
      | none => cases wide
      | some named => cases named <;> cases wide <;> rfl
  | sized named inner =>
      cases wide
      rfl

theorem value_of_cell (cell : operand.cell? = some (width, inner)) :
    machine.value operand = machine.address inner >>= (machine.load · width) := by
  cases operand with
  | literal byte => cases cell
  | top => cases cell
  | insPtr => cases cell
  | ref named inner =>
      cases cell
      rfl
  | sized named inner =>
      cases cell
      rfl

theorem value_of_resolved (cell : operand.cell? = some (width, inner))
    (resolved : machine.address inner = .ok address) :
    machine.value operand = machine.load address width := by
  rw [value_of_cell cell, resolved]
  rfl

theorem load_eq_ok_iff {value : Value} :
    machine.load address width = .ok value ↔ machine.memory.read address width = .ok value :=
  answer_mapError_eq_ok

theorem load_of_le (within : address.toNat + width.size ≤ Memory.size) :
    ∃ value, machine.load address width = .ok value := by
  obtain ⟨value, loaded, -⟩ := Memory.read_of_le machine.memory within
  exact ⟨value, load_eq_ok_iff.mpr loaded⟩

theorem load_of_lt (beyond : Memory.size < address.toNat + width.size) :
    machine.load address width = .error (.memoryOutOfRange address width) := by
  unfold load
  rw [Memory.read_eq_error_iff.mpr ⟨beyond, rfl⟩]
  rfl

/-- What a cell gives as a byte: the last of its bytes, if it is in memory and its address is
one. -/
structure GivesLowByte (machine : Machine) (operand inner : Operand) (width : Width) : Prop where
  last : ∀ address, machine.address inner = .ok address → address.toNat + width.size ≤ 256 →
    ∃ byte, machine.memory.toList[address.toNat + width.size - 1]? = some byte ∧
      machine.byte operand = .ok byte
  beyond : ∀ address, machine.address inner = .ok address →
    256 < address.toNat + width.size →
    machine.byte operand = .error (.memoryOutOfRange address width)
  unresolved : ∀ cause, machine.address inner = .error cause →
    machine.byte operand = .error cause

theorem givesLowByte_of_cell (cell : operand.cell? = some (width, inner)) :
    machine.GivesLowByte operand inner width where
  last := by
    intro address resolved within
    obtain ⟨value, loaded⟩ := load_of_le within
    refine ⟨value.lowByte, Memory.getElem?_of_read (load_eq_ok_iff.mp loaded), ?_⟩
    rw [byte, value_of_resolved cell resolved, loaded]
    rfl
  beyond := by
    intro address resolved past
    rw [byte, value_of_resolved cell resolved, load_of_lt past]
    rfl
  unresolved := by
    intro cause failed
    rw [byte, value_of_cell cell, failed]
    rfl

/-- An operand is resolved by following its pointers, each by a look-up of the cell at an
address. -/
theorem operand_resolution (machine : Machine) (operand : Operand) :
    (∀ address : Byte,
      machine.memory.toList[address.toNat]? = some (machine.memory.byteAt address)) ∧
    (∀ count leaf, Pointers count operand leaf → leaf.isLeaf = true →
      (∀ byte, machine.LeafByte leaf byte →
        machine.address operand = .ok (machine.memory.byteAt^[count] byte)) ∧
      ∀ cause, machine.address operand = .error cause ↔
        leaf = .insPtr ∧ 255 < machine.tape.cursor ∧
          cause = .insPtrOverflow machine.tape.cursor) ∧
    (∀ count target width, Pointers count operand target → target.wide? = some width →
      machine.address operand = .error (.unknownMarker (.size width))) ∧
    (∃ count target, Pointers count operand target ∧
      (target.isLeaf = true ∨ ∃ width, target.wide? = some width)) ∧
    ∀ width inner, operand.cell? = some (width, inner) →
      machine.GivesLowByte operand inner width := by
  refine ⟨machine.memory.getElem?_toList, ?_, ?_, operand.exists_pointers,
    fun width inner => givesLowByte_of_cell⟩
  · intro count leaf pointers leaves
    rw [address_of_pointers pointers]
    constructor
    · intro byte stands
      rw [stands.address_eq]
      rfl
    · intro cause
      rw [← address_leaf_eq_error_iff leaves]
      constructor
      · exact answer_map_eq_error
      · intro failed
        rw [failed]
        rfl
  · intro count target width pointers wide
    rw [address_of_pointers pointers, address_of_wide wide]
    rfl

/-- Two pointers are followed to a byte, and one of them to a word. A cell that is no address is
named before another inside it, and before a cursor that is too far. -/
theorem operand_resolution_outermost :
    let memory := ((Memory.zero.setByte 0x01 0x05).setByte 0x05 0x77).setByte 0x06 0x12
    let machine : Machine := { tape := ⟨[], 300⟩, memory := memory }
    memory.toList[1]? = some 0x05 ∧ memory.toList[5]? = some 0x77 ∧
      machine.address (.ref none (.ref (some .byte) (.literal 0x01))) = .ok 0x77 ∧
      memory.toList[6]? = some 0x12 ∧
      machine.byte (.sized .word (.ref none (.literal 0x01))) = .ok 0x12 ∧
      machine.address (.ref none (.ref (some .word) (.sized .quadWord .insPtr))) =
        .error (.unknownMarker (.size .word)) ∧
      machine.address (.ref none .insPtr) = .error (.insPtrOverflow 300) := by
  intro memory machine
  have cells := (operand_resolution machine .top).1
  have one : machine.memory.byteAt 0x01 = 0x05 := by decide +kernel
  have five : machine.memory.byteAt 0x05 = 0x77 := by decide +kernel
  have six : machine.memory.byteAt 0x06 = 0x12 := by decide +kernel
  have once : machine.address (.ref none (.literal 0x01)) = .ok 0x05 := by
    rw [((operand_resolution machine _).2.1 1 _ (.ref (.inl rfl) (.here _)) rfl).1 _ (.literal _)]
    exact congrArg Except.ok one
  have twice : machine.address (.ref none (.ref (some .byte) (.literal 0x01))) = .ok 0x77 := by
    rw [((operand_resolution machine _).2.1 2 _ (.ref (.inl rfl) (.ref (.inr rfl) (.here _)))
      rfl).1 _ (.literal _), Function.iterate_succ_apply, one]
    exact congrArg Except.ok five
  refine ⟨one ▸ cells 0x01, five ▸ cells 0x05, twice, six ▸ cells 0x06, ?_, ?_, ?_⟩
  · have gives := (operand_resolution machine (.sized .word (.ref none (.literal 0x01)))).2.2.2.2
      .word _ rfl
    obtain ⟨byte, found, low⟩ := gives.last 0x05 once (by decide)
    have same : some byte = some 0x12 := found.symm.trans (six ▸ cells 0x06)
    cases same
    exact low
  · exact (operand_resolution machine _).2.2.1 1 _ .word (.ref (.inl rfl) (.here _)) rfl
  · exact (((operand_resolution machine _).2.1 1 _ (.ref (.inl rfl) (.here _)) rfl).2 _).mpr
      ⟨rfl, by decide, rfl⟩

end Machine

end ByteMachine
