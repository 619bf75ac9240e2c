import ByteMachine.Packed

namespace ByteMachine

/-! Values: packed integers with zeros in the cells behind their bytes, so that values of the
same bytes are equal. -/

structure Value extends Packed where
  padded : toPacked.Padded
  deriving DecidableEq, Repr

namespace Value

theorem length_bytes (value : Value) : value.bytes.length = value.width.size :=
  value.toPacked.length_bytes

theorem ext_bytes {left right : Value} (bytes : left.bytes = right.bytes) :
    left = right := by
  obtain ⟨leftPacked, leftPadded⟩ := left
  obtain ⟨rightPacked, rightPadded⟩ := right
  obtain rfl : leftPacked = rightPacked := leftPadded.ext rightPadded bytes
  rfl

/-- The value of a width that holds the low-order bits of a 64-bit number. -/
def ofUInt64 (width : Width) (number : UInt64) : Value :=
  ⟨.ofUInt64 width number, Packed.padded_ofUInt64 width number⟩

def ofNat (width : Width) (number : Nat) : Value :=
  ofUInt64 width (.ofNat number)

def ofByte (byte : Byte) : Value :=
  ⟨.ofByte byte, Packed.padded_pack rfl⟩

def word (number : UInt16) : Value :=
  ⟨.word number, Packed.padded_ofUInt64 _ _⟩

def doubleWord (number : UInt32) : Value :=
  ⟨.doubleWord number, Packed.padded_ofUInt64 _ _⟩

def quadWord (number : UInt64) : Value :=
  ⟨.quadWord number, Packed.padded_ofUInt64 _ _⟩

/-- The value that a list of bytes spells, if its length is the size of a width. -/
def ofBytes? (bytes : List Byte) : Option Value :=
  (Packed.ofBytes? bytes).pmap Value.mk fun _ => Packed.padded_of_ofBytes?

/-- Two values of one width side by side, the first in the high-order half. -/
def pair? (high low : Value) : Option Value :=
  (Packed.pair? high.toPacked low.toPacked).pmap Value.mk fun _ => Packed.padded_of_pair?

/-- The high-order and the low-order half of a value, unless it is a byte. -/
def split? (value : Value) : Option (Value × Value) :=
  value.toPacked.split?.pmap (fun halves padded => (⟨halves.1, padded.1⟩, ⟨halves.2, padded.2⟩))
    fun _ => Packed.padded_of_split?

/-- The value at another width: high-order bytes are dropped or filled with zero. -/
def resize (value : Value) (width : Width) : Value :=
  ⟨value.toPacked.resize width, Packed.padded_ofUInt64 _ _⟩

@[simp] theorem width_ofNat (width : Width) (number : Nat) :
    (ofNat width number).width = width := rfl

@[simp] theorem width_ofUInt64 (width : Width) (number : UInt64) :
    (ofUInt64 width number).width = width := rfl

@[simp] theorem width_ofByte (byte : Byte) : (ofByte byte).width = .byte := rfl

@[simp] theorem bytes_ofByte (byte : Byte) : (ofByte byte).bytes = [byte] :=
  Packed.bytes_pack rfl

@[simp] theorem lowByte_ofByte (byte : Byte) : (ofByte byte).lowByte = byte := by
  rw [Packed.lowByte, Packed.byteAt_cells _ (Nat.zero_lt_one), bytes_ofByte]
  rfl

@[simp] theorem width_resize (value : Value) (width : Width) :
    (value.resize width).width = width := rfl

theorem ofBytes?_eq_some_iff {bytes : List Byte} {value : Value} :
    ofBytes? bytes = some value ↔ value.bytes = bytes := by
  unfold ofBytes?
  rw [Option.pmap_eq_some_iff]
  constructor
  · rintro ⟨packed, padded, found, rfl⟩
    obtain ⟨length, same⟩ := Packed.ofBytes?_eq_some_iff.mp found
    dsimp only
    rw [same]
    exact Packed.bytes_pack length
  · rintro rfl
    exact ⟨value.toPacked, value.padded, value.padded.ofBytes?_bytes, rfl⟩

@[simp] theorem ofBytes?_bytes (value : Value) : ofBytes? value.bytes = some value :=
  ofBytes?_eq_some_iff.mpr rfl

theorem pair?_eq_some_iff {high low value : Value} :
    pair? high low = some value ↔
      high.width = low.width ∧ high.width.double? = some value.width ∧
        value.bytes = high.bytes ++ low.bytes := by
  unfold pair?
  rw [Option.pmap_eq_some_iff]
  constructor
  · rintro ⟨packed, padded, found, rfl⟩
    obtain ⟨same, wide, -⟩ := Packed.pair?_eq_some_iff.mp found
    exact ⟨same, wide, Packed.bytes_of_pair? found⟩
  · rintro ⟨same, wide, side⟩
    have length := Packed.length_pair same wide
    refine ⟨value.toPacked, value.padded, ?_, rfl⟩
    refine Packed.pair?_eq_some_iff.mpr ⟨same, wide, ?_⟩
    apply value.padded.ext (Packed.padded_pack length)
    rw [side, Packed.bytes_pack length]

/-- As many bytes as a width has spell a value of that width. -/
theorem exists_bytes_eq {width : Width} {bytes : List Byte}
    (length : bytes.length = width.size) :
    ∃ value : Value, value.width = width ∧ value.bytes = bytes :=
  ⟨⟨.pack width bytes, Packed.padded_pack length⟩, rfl, Packed.bytes_pack length⟩

theorem exists_pair {high low : Value} {wide : Width} (same : high.width = low.width)
    (double : high.width.double? = some wide) :
    ∃ value : Value, high.pair? low = some value ∧ value.width = wide ∧
      value.bytes = high.bytes ++ low.bytes := by
  obtain ⟨value, width, bytes⟩ := exists_bytes_eq (Packed.length_pair same double)
  refine ⟨value, pair?_eq_some_iff.mpr ⟨same, ?_, bytes⟩, width, bytes⟩
  rw [width]
  exact double

end Value

end ByteMachine
