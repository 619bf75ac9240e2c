import ByteMachine.Cells
import ByteMachine.Width

namespace ByteMachine

/-! Unsigned integers of one of the four widths, packed into a row of eight cells: the
big-endian bytes stand in the first cells. -/

structure Packed where
  width : Width
  cells : Cells 8
  deriving DecidableEq, Repr

namespace Packed

def bytes (value : Packed) : List Byte :=
  value.cells.slice 0 value.width.size

/-- Nothing stands behind the bytes. -/
def Padded (value : Packed) : Prop :=
  ∀ index, value.width.size ≤ index → value.cells.byteAt index = 0

/-- Packs bytes into a row that was cleared before. -/
def pack (width : Width) (bytes : List Byte) : Packed :=
  ⟨width, (Cells.zero 8).overwrite 0 bytes⟩

def ofByte (byte : Byte) : Packed :=
  pack .byte [byte]

/-- The value of a width that holds the low-order bits of a 64-bit number. -/
def ofUInt64 (width : Width) (number : UInt64) : Packed :=
  pack width ((bigEndian 8 (number &&& width.mask).toNat).drop (8 - width.size))

def word (number : UInt16) : Packed :=
  ofUInt64 .word number.toUInt64

def doubleWord (number : UInt32) : Packed :=
  ofUInt64 .doubleWord number.toUInt64

def quadWord (number : UInt64) : Packed :=
  ofUInt64 .quadWord number

/-- The value that a list of bytes spells, if its length is the size of a width. -/
def ofBytes? (bytes : List Byte) : Option Packed :=
  (Width.ofSize? bytes.length).map fun width => pack width bytes

/-- Two values of one width side by side, the first in the high-order half. -/
def pair? (high low : Packed) : Option Packed :=
  if high.width = low.width then
    high.width.double?.map fun width =>
      ⟨width, ((Cells.zero 8).overwrite 0 high.bytes).overwrite high.width.size low.bytes⟩
  else none

/-- The high-order and the low-order half of a value, unless it is a byte. -/
def split? (value : Packed) : Option (Packed × Packed) :=
  value.width.half?.map fun half =>
    (pack half (value.cells.slice 0 half.size),
      pack half (value.cells.slice half.size half.size))

def toUInt64 (value : Packed) : UInt64 :=
  value.bytes.foldl (fun total byte => total <<< 8 ||| byte.toUInt64) 0

/-- The number that the bytes spell. -/
def toNat (value : Packed) : Nat :=
  ofBigEndian value.bytes

def lowByte (value : Packed) : Byte :=
  value.cells.byteAt (value.width.size - 1)

/-- The value at another width: high-order bytes are dropped or filled with zero. -/
def resize (value : Packed) (width : Width) : Packed :=
  ofUInt64 width value.toUInt64

def text (value : Packed) : String :=
  "0x" ++ String.ofList (value.bytes.flatMap Byte.digits)

@[simp] theorem width_pack (width : Width) (bytes : List Byte) :
    (pack width bytes).width = width := rfl

@[simp] theorem length_bytes (value : Packed) : value.bytes.length = value.width.size :=
  Cells.length_slice (by have := value.width.size_le; omega)

theorem bytes_pack {width : Width} {bytes : List Byte} (length : bytes.length = width.size) :
    (pack width bytes).bytes = bytes := by
  have bound := width.size_le
  rw [Packed.bytes, width_pack, ← length]
  exact Cells.slice_overwrite_self _ 0 bytes (by omega)

theorem padded_pack {width : Width} {bytes : List Byte} (length : bytes.length = width.size) :
    (pack width bytes).Padded := by
  intro index behind
  have bound := width.size_le
  rw [width_pack] at behind
  rw [pack, Cells.byteAt_overwrite _ _ _ _ (by omega), if_neg (by omega), Cells.byteAt_zero]

theorem byteAt_cells (value : Packed) {index : Nat} (inside : index < value.width.size) :
    value.cells.byteAt index = value.bytes.getD index 0 := by
  rw [bytes, Cells.getD_slice _ inside, Nat.zero_add]

/-- Behind the bytes nothing tells two values apart. -/
theorem Padded.ext {left right : Packed} (padded : left.Padded) (other : right.Padded)
    (same : left.bytes = right.bytes) : left = right := by
  obtain ⟨leftWidth, leftCells⟩ := left
  obtain ⟨rightWidth, rightCells⟩ := right
  have sizes : leftWidth.size = rightWidth.size := by
    have lengths := congrArg List.length same
    rwa [length_bytes, length_bytes] at lengths
  have widths : leftWidth = rightWidth := by
    have found := congrArg Width.ofSize? sizes
    simpa using found
  subst widths
  have cells : leftCells = rightCells := by
    apply Cells.ext_byteAt
    intro index
    by_cases inside : index < leftWidth.size
    · have before := byteAt_cells ⟨leftWidth, leftCells⟩ inside
      have after := byteAt_cells ⟨leftWidth, rightCells⟩ inside
      rw [same] at before
      exact before.trans after.symm
    · have behind : leftWidth.size ≤ index := Nat.le_of_not_lt inside
      exact (padded index behind).trans (other index behind).symm
  rw [cells]

theorem Padded.pack_bytes {value : Packed} (padded : value.Padded) :
    pack value.width value.bytes = value :=
  (padded_pack value.length_bytes).ext padded (bytes_pack value.length_bytes)

theorem padded_ofUInt64 (width : Width) (number : UInt64) : (ofUInt64 width number).Padded := by
  have bound := width.size_le
  apply padded_pack
  rw [List.length_drop, length_bigEndian]
  omega

theorem ofBytes?_eq_some_iff {bytes : List Byte} {value : Packed} :
    ofBytes? bytes = some value ↔
      bytes.length = value.width.size ∧ value = pack value.width bytes := by
  unfold ofBytes?
  rw [Option.map_eq_some_iff]
  constructor
  · rintro ⟨width, found, rfl⟩
    exact ⟨(Width.size_of_ofSize? found).symm, rfl⟩
  · rintro ⟨length, same⟩
    refine ⟨value.width, ?_, same.symm⟩
    rw [length, Width.ofSize?_size]

theorem Padded.ofBytes?_bytes {value : Packed} (padded : value.Padded) :
    ofBytes? value.bytes = some value :=
  ofBytes?_eq_some_iff.mpr ⟨value.length_bytes, padded.pack_bytes.symm⟩

theorem padded_of_ofBytes? {bytes : List Byte} {value : Packed}
    (found : ofBytes? bytes = some value) : value.Padded := by
  obtain ⟨length, same⟩ := ofBytes?_eq_some_iff.mp found
  rw [same]
  exact padded_pack length

/-- The halves stand side by side, as if they had been packed at once. -/
theorem pair?_eq_some_iff {high low value : Packed} :
    pair? high low = some value ↔
      high.width = low.width ∧ high.width.double? = some value.width ∧
        value = pack value.width (high.bytes ++ low.bytes) := by
  have side : (((Cells.zero 8).overwrite 0 high.bytes).overwrite high.width.size low.bytes) =
      (Cells.zero 8).overwrite 0 (high.bytes ++ low.bytes) := by
    rw [Cells.overwrite_append, length_bytes, Nat.zero_add]
  unfold pair?
  rw [side]
  by_cases same : high.width = low.width
  · rw [if_pos same, Option.map_eq_some_iff]
    constructor
    · rintro ⟨width, found, rfl⟩
      exact ⟨same, found, rfl⟩
    · rintro ⟨-, found, paired⟩
      exact ⟨value.width, found, paired.symm⟩
  · simp [same]

theorem length_pair {high low : Packed} {width : Width} (same : high.width = low.width)
    (found : high.width.double? = some width) :
    (high.bytes ++ low.bytes).length = width.size := by
  rw [List.length_append, length_bytes, length_bytes, ← same, Width.size_double found]
  omega

theorem bytes_of_pair? {high low value : Packed} (found : pair? high low = some value) :
    value.bytes = high.bytes ++ low.bytes := by
  obtain ⟨same, wide, packed⟩ := pair?_eq_some_iff.mp found
  rw [packed]
  exact bytes_pack (length_pair same wide)

theorem padded_of_pair? {high low value : Packed} (found : pair? high low = some value) :
    value.Padded := by
  obtain ⟨same, wide, packed⟩ := pair?_eq_some_iff.mp found
  rw [packed]
  exact padded_pack (length_pair same wide)

/-- Each half is packed from the bytes of its own. -/
theorem split?_eq_some_iff {value high low : Packed} :
    split? value = some (high, low) ↔
      value.width.half? = some high.width ∧ low.width = high.width ∧
        high = pack high.width (value.bytes.take high.width.size) ∧
        low = pack low.width (value.bytes.drop low.width.size) := by
  have halves {half : Width} (found : value.width.half? = some half) :
      value.cells.slice 0 half.size = value.bytes.take half.size ∧
        value.cells.slice half.size half.size = value.bytes.drop half.size := by
    have parted := value.cells.slice_add 0 half.size half.size
    have length : (value.cells.slice 0 half.size).length = half.size :=
      Cells.length_slice (by have := half.size_le; omega)
    rw [Nat.zero_add] at parted
    rw [bytes, Width.size_half found, Nat.two_mul, parted, List.take_left' length,
      List.drop_left' length]
    exact ⟨rfl, rfl⟩
  unfold split?
  rw [Option.map_eq_some_iff]
  constructor
  · rintro ⟨half, found, same⟩
    obtain ⟨front, back⟩ := halves found
    rw [front, back] at same
    cases same
    exact ⟨found, rfl, rfl, rfl⟩
  · rintro ⟨found, same, front, back⟩
    refine ⟨high.width, found, ?_⟩
    obtain ⟨first, second⟩ := halves found
    rw [same] at back
    rw [first, second, ← front, ← back]

theorem length_halves {value : Packed} {half : Width} (found : value.width.half? = some half) :
    (value.bytes.take half.size).length = half.size ∧
      (value.bytes.drop half.size).length = half.size := by
  have size := Width.size_half found
  rw [List.length_take, List.length_drop, length_bytes]
  omega

theorem bytes_of_split? {value high low : Packed} (found : split? value = some (high, low)) :
    value.bytes = high.bytes ++ low.bytes := by
  obtain ⟨half, same, front, back⟩ := split?_eq_some_iff.mp found
  obtain ⟨frontLength, backLength⟩ := length_halves half
  rw [same] at back
  rw [front, back, bytes_pack frontLength, bytes_pack backLength, List.take_append_drop]

theorem padded_of_split? {value : Packed} {halves : Packed × Packed}
    (found : split? value = some halves) : halves.1.Padded ∧ halves.2.Padded := by
  obtain ⟨high, low⟩ := halves
  obtain ⟨half, same, front, back⟩ := split?_eq_some_iff.mp found
  obtain ⟨frontLength, backLength⟩ := length_halves half
  rw [same] at back
  constructor
  · dsimp only
    rw [front]
    exact padded_pack frontLength
  · dsimp only
    rw [back]
    exact padded_pack backLength

end Packed

end ByteMachine
