import Mathlib
import ByteMachine.Value

namespace ByteMachine

/-! A value is determined by its width and its number. -/

theorem ofBigEndian_lt (bytes : List Byte) :
    ofBigEndian bytes < 256 ^ bytes.length := by
  induction bytes using List.reverseRecOn with
  | nil => simp
  | append_singleton bytes byte induction =>
      have small := byte.toNat_lt
      rw [ofBigEndian_concat, List.length_append, List.length_singleton, Nat.pow_succ]
      omega

theorem bigEndian_ofBigEndian (bytes : List Byte) :
    bigEndian bytes.length (ofBigEndian bytes) = bytes := by
  induction bytes using List.reverseRecOn with
  | nil => rfl
  | append_singleton bytes byte induction =>
      have small := byte.toNat_lt
      have high :
          (ofBigEndian bytes * 256 + byte.toNat) / 256 = ofBigEndian bytes := by
        omega
      have low : UInt8.ofNat (ofBigEndian bytes * 256 + byte.toNat) = byte := by
        apply UInt8.toNat_inj.mp
        simp
      rw [ofBigEndian_concat, List.length_append, List.length_singleton, bigEndian,
        high, induction, low]

theorem ofBigEndian_bigEndian (count number : Nat) :
    ofBigEndian (bigEndian count number) = number % 256 ^ count := by
  induction count generalizing number with
  | zero => simp [bigEndian, Nat.mod_one]
  | succ count induction =>
      have split : number % 256 ^ (count + 1) =
          number % 256 + 256 * (number / 256 % 256 ^ count) := by
        rw [pow_succ', Nat.mod_mul]
      have low : (UInt8.ofNat number).toNat = number % 256 := by simp
      rw [bigEndian, ofBigEndian_concat, induction, low, split]
      omega

theorem drop_bigEndian (first count number : Nat) :
    (bigEndian (first + count) number).drop first = bigEndian count number := by
  induction count generalizing number with
  | zero =>
      rw [Nat.add_zero, List.drop_eq_nil_of_le (by rw [length_bigEndian])]
      rfl
  | succ count induction =>
      rw [← Nat.add_assoc, bigEndian, bigEndian,
        List.drop_append_of_le_length (by rw [length_bigEndian]; omega), induction]

/-- Higher digits are not seen. -/
theorem bigEndian_mod (count number : Nat) :
    bigEndian count (number % 256 ^ count) = bigEndian count number := by
  have whole := bigEndian_ofBigEndian (bigEndian count number)
  rwa [length_bigEndian, ofBigEndian_bigEndian] at whole

/-- Shifting eight bits to the left and setting the low ones appends a byte to a number, as
long as no bit is lost at the 64th. -/
theorem shiftLeft_or_byte {total : UInt64} (byte : Byte) (room : total.toNat < 256 ^ 7) :
    (total <<< 8 ||| byte.toUInt64).toNat = total.toNat * 256 + byte.toNat := by
  have small := byte.toNat_lt
  have kept : total.toNat <<< 8 % 2 ^ 64 = total.toNat <<< 8 := by
    apply Nat.mod_eq_of_lt
    rw [Nat.shiftLeft_eq]
    omega
  calc
    (total <<< 8 ||| byte.toUInt64).toNat = total.toNat <<< 8 % 2 ^ 64 ||| byte.toNat := by
      rw [UInt64.toNat_or, UInt64.toNat_shiftLeft, UInt8.toNat_toUInt64]
      rfl
    _ = total.toNat <<< 8 + byte.toNat := by
      rw [kept, Nat.shiftLeft_add_eq_or_of_lt small]
    _ = total.toNat * 256 + byte.toNat := by rw [Nat.shiftLeft_eq]

theorem toNat_foldl_shiftLeft {bytes : List Byte} (short : bytes.length ≤ 8) :
    (bytes.foldl (fun (total : UInt64) byte => total <<< 8 ||| byte.toUInt64) 0).toNat =
      ofBigEndian bytes := by
  induction bytes using List.reverseRecOn with
  | nil => rfl
  | append_singleton bytes byte induction =>
      rw [List.length_append, List.length_singleton] at short
      have before := induction (by omega)
      have room : ofBigEndian bytes < 256 ^ 7 :=
        Nat.lt_of_lt_of_le (ofBigEndian_lt bytes) (Nat.pow_le_pow_right (by decide) (by omega))
      rw [← before] at room
      rw [List.foldl_append, List.foldl_cons, List.foldl_nil, shiftLeft_or_byte byte room, before,
        ofBigEndian_concat]

namespace Width

theorem mask_add_one (width : Width) : width.mask.toNat + 1 = 256 ^ width.size := by
  cases width <;> rfl

theorem two_pow_size (width : Width) : 2 ^ (8 * width.size) = width.mask.toNat + 1 := by
  cases width <;> rfl

theorem two_pow_bits (width : Width) : 2 ^ width.bits = 256 ^ width.size := by
  cases width <;> rfl

theorem toNat_and_mask (width : Width) (number : UInt64) :
    (number &&& width.mask).toNat = number.toNat % 256 ^ width.size := by
  have ones : width.mask.toNat = 2 ^ width.bits - 1 := by
    rw [bits, two_pow_size, Nat.add_sub_cancel]
  rw [UInt64.toNat_and, ones, Nat.and_two_pow_sub_one_eq_mod, two_pow_bits]

end Width

namespace Packed

theorem toNat_le_mask (value : Packed) : value.toNat ≤ value.width.mask.toNat := by
  have bound := ofBigEndian_lt value.bytes
  rw [value.length_bytes, ← Width.mask_add_one] at bound
  exact Nat.le_of_lt_succ bound

theorem toNat_lt (value : Packed) : value.toNat < 2 ^ value.width.bits := by
  have bound := ofBigEndian_lt value.bytes
  rw [value.length_bytes] at bound
  rw [Width.two_pow_bits]
  exact bound

theorem toNat_toUInt64 (value : Packed) : value.toUInt64.toNat = value.toNat :=
  toNat_foldl_shiftLeft (by rw [value.length_bytes]; exact value.width.size_le)

theorem bigEndian_toNat (value : Packed) :
    bigEndian value.width.size value.toNat = value.bytes := by
  rw [← value.length_bytes]
  exact bigEndian_ofBigEndian value.bytes

theorem bytes_ofUInt64 (width : Width) (number : UInt64) :
    (ofUInt64 width number).bytes = bigEndian width.size number.toNat := by
  have bound := width.size_le
  have low : (bigEndian 8 (number &&& width.mask).toNat).drop (8 - width.size) =
      bigEndian width.size number.toNat := by
    have dropped := drop_bigEndian (8 - width.size) width.size (number &&& width.mask).toNat
    rw [Nat.sub_add_cancel bound] at dropped
    rw [dropped, Width.toNat_and_mask, bigEndian_mod]
  rw [ofUInt64, low]
  exact bytes_pack (length_bigEndian _ _)

theorem toNat_ofUInt64 (width : Width) (number : UInt64) :
    (ofUInt64 width number).toNat = number.toNat % 2 ^ width.bits := by
  rw [toNat, bytes_ofUInt64, ofBigEndian_bigEndian, Width.two_pow_bits]

theorem toNat_resize (value : Packed) (width : Width) :
    (value.resize width).toNat = value.toNat % 2 ^ width.bits := by
  rw [resize, toNat_ofUInt64, toNat_toUInt64]

end Packed

namespace Value

theorem toNat_ofUInt64 (width : Width) (number : UInt64) :
    (ofUInt64 width number).toNat = number.toNat % 2 ^ width.bits :=
  Packed.toNat_ofUInt64 width number

theorem toNat_resize (value : Value) (width : Width) :
    (value.resize width).toNat = value.toNat % 2 ^ width.bits :=
  value.toPacked.toNat_resize width

theorem toNat_ofNat {width : Width} {number : Nat} (fits : number ≤ width.mask.toNat) :
    (ofNat width number).toNat = number := by
  have small : number < 2 ^ width.bits := by
    rw [Width.bits, Width.two_pow_size]
    exact Nat.lt_succ_of_le fits
  have short : number < UInt64.size := Nat.lt_of_le_of_lt fits width.mask.toNat_lt
  rw [ofNat, toNat_ofUInt64, UInt64.toNat_ofNat_of_lt' short, Nat.mod_eq_of_lt small]

theorem ofNat_toNat (value : Value) : ofNat value.width value.toNat = value := by
  apply ext_bytes
  rw [← (ofNat value.width value.toNat).bigEndian_toNat, toNat_ofNat value.toNat_le_mask]
  exact value.bigEndian_toNat

end Value

end ByteMachine
