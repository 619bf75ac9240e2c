import ByteMachine.Operation

namespace ByteMachine

/-! The opcode table. Some opcodes start an instruction; the others, the markers, start
an operand. -/

inductive Opcode where
  | move
  | load (width : Width)
  | jump
  | push
  | pop
  | top
  | arithmetic (op : Arithmetic)
  | ref
  | insPtr
  | size (width : Width)
  | compare (condition : Condition)
  | branch (condition : Condition)
  | bitwise (op : Bitwise)
  | invert
  deriving DecidableEq, Repr

namespace Opcode

def all : List Opcode :=
  [move, load .byte, load .word, load .doubleWord, load .quadWord, jump, push, pop, top,
    arithmetic .add, arithmetic .sub, arithmetic .mul, arithmetic .div, ref, insPtr,
    size .byte, size .word, size .doubleWord, size .quadWord,
    compare .eq, compare .le, compare .lt, compare .ge, compare .gt,
    branch .eq, branch .lt, branch .le, branch .gt, branch .ge,
    bitwise .and, bitwise .or, bitwise .xor, invert, bitwise .shiftRight,
    bitwise .shiftLeft]

def code : Opcode → Byte
  | move => 0xff
  | load .byte => 0xef
  | load .word => 0xee
  | load .doubleWord => 0xed
  | load .quadWord => 0xec
  | jump => 0xfe
  | push => 0xfd
  | pop => 0xfc
  | top => 0xb0
  | arithmetic .add => 0xa0
  | arithmetic .sub => 0xa1
  | arithmetic .mul => 0xa2
  | arithmetic .div => 0xa3
  | ref => 0xc0
  | insPtr => 0xc1
  | size .byte => 0xc2
  | size .word => 0xc3
  | size .doubleWord => 0xc4
  | size .quadWord => 0xc5
  | compare .eq => 0xc6
  | compare .le => 0xc7
  | compare .lt => 0xc8
  | compare .ge => 0xc9
  | compare .gt => 0xca
  | branch .eq => 0xd1
  | branch .lt => 0xd2
  | branch .le => 0xd3
  | branch .gt => 0xd4
  | branch .ge => 0xd5
  | bitwise .and => 0x90
  | bitwise .or => 0x91
  | bitwise .xor => 0x92
  | invert => 0x93
  | bitwise .shiftRight => 0x94
  | bitwise .shiftLeft => 0x95

def mnemonic : Opcode → String
  | move => "MOVE"
  | load .byte => "MOVB"
  | load .word => "MOVW"
  | load .doubleWord => "MOVD"
  | load .quadWord => "MOVQ"
  | jump => "JMP"
  | push => "PUSH"
  | pop => "POP"
  | top => "TOP"
  | arithmetic .add => "ADD"
  | arithmetic .sub => "SUB"
  | arithmetic .mul => "MUL"
  | arithmetic .div => "DIV"
  | ref => "REF"
  | insPtr => "INSPTR"
  | size .byte => "BYTE"
  | size .word => "WORD"
  | size .doubleWord => "DWORD"
  | size .quadWord => "QWORD"
  | compare .eq => "CMP"
  | compare .le => "LE"
  | compare .lt => "LT"
  | compare .ge => "GE"
  | compare .gt => "GT"
  | branch .eq => "JEQ"
  | branch .lt => "JLT"
  | branch .le => "JLE"
  | branch .gt => "JGT"
  | branch .ge => "JGE"
  | bitwise .and => "AND"
  | bitwise .or => "OR"
  | bitwise .xor => "XOR"
  | invert => "INV"
  | bitwise .shiftRight => "SHR"
  | bitwise .shiftLeft => "SHL"

def ofByte? (byte : Byte) : Option Opcode :=
  all.find? (·.code == byte)

/-- The table entry of an exact, uppercase mnemonic. -/
def ofMnemonic? (name : String) : Option Opcode :=
  all.find? (·.mnemonic == name)

theorem mem_all (opcode : Opcode) : opcode ∈ all := by
  cases opcode with
  | load width => cases width <;> simp [all]
  | size width => cases width <;> simp [all]
  | arithmetic op => cases op <;> simp [all]
  | bitwise op => cases op <;> simp [all]
  | compare condition => cases condition <;> simp [all]
  | branch condition => cases condition <;> simp [all]
  | _ => simp [all]

@[simp] theorem ofByte?_code (opcode : Opcode) : ofByte? opcode.code = some opcode := by
  have table : ∀ entry ∈ all, ofByte? entry.code = some entry := by decide
  exact table opcode opcode.mem_all

@[simp] theorem ofMnemonic?_mnemonic (opcode : Opcode) :
    ofMnemonic? opcode.mnemonic = some opcode := by
  have table : ∀ entry ∈ all, ofMnemonic? entry.mnemonic = some entry := by decide
  exact table opcode opcode.mem_all

theorem ofByte?_eq_some_iff {byte : Byte} {opcode : Opcode} :
    ofByte? byte = some opcode ↔ byte = opcode.code := by
  constructor
  · intro found
    have := List.find?_some found
    simpa using (beq_iff_eq.mp this).symm
  · rintro rfl
    exact ofByte?_code opcode

theorem ofMnemonic?_eq_some_iff {name : String} {opcode : Opcode} :
    ofMnemonic? name = some opcode ↔ name = opcode.mnemonic := by
  constructor
  · intro found
    have := List.find?_some found
    simpa using (beq_iff_eq.mp this).symm
  · rintro rfl
    exact ofMnemonic?_mnemonic opcode

theorem code_injective {left right : Opcode} (equal : left.code = right.code) :
    left = right := by
  have found := ofByte?_code left
  rw [equal, ofByte?_code] at found
  exact (Option.some.inj found).symm

/-- Markers start an operand and never an instruction. -/
def isMarker : Opcode → Bool
  | top | ref | insPtr | size _ => true
  | _ => false

/-- The markers that may start a byte operand. -/
def isValueMarker : Opcode → Bool
  | top | ref | insPtr => true
  | _ => false

def width? : Opcode → Option Width
  | size width => some width
  | _ => none

def immediateWidth? : Opcode → Option Width
  | load width => some width
  | _ => none

def arithmetic? : Opcode → Option Arithmetic
  | arithmetic op => some op
  | _ => none

def bitwise? : Opcode → Option Bitwise
  | bitwise op => some op
  | _ => none

def comparison? : Opcode → Option Condition
  | compare condition => some condition
  | _ => none

def branch? : Opcode → Option Condition
  | branch condition => some condition
  | _ => none

end Opcode

/-- What a byte means where an operand may start. -/
inductive Symbol where
  | literal (byte : Byte)
  | marker (opcode : Opcode)
  deriving DecidableEq, Repr

namespace Symbol

/-- In an address, every byte of the opcode table is a marker. -/
def ofByte (byte : Byte) : Symbol :=
  match Opcode.ofByte? byte with
  | some opcode => marker opcode
  | none => literal byte

/-- In a byte operand only the value markers are; other bytes stand for themselves. -/
def ofValueByte (byte : Byte) : Symbol :=
  match Opcode.ofByte? byte with
  | some opcode => if opcode.isValueMarker then marker opcode else literal byte
  | none => literal byte

end Symbol

end ByteMachine
