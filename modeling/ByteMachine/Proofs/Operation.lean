import ByteMachine.Operation
import ByteMachine.Proofs.Value

namespace ByteMachine

/-! Operations on bytes and on 64 bits as operations on numbers. Bitwise operations on 64
bits, cut down to a width, are operations on numbers of that width. -/

namespace Width

theorem bits_le (width : Width) : width.bits ≤ 64 := by
  cases width <;> decide

theorem eight_le_bits (width : Width) : 8 ≤ width.bits := by
  cases width <;> decide

end Width

namespace Arithmetic

/-- The operation on numbers: modulo 256, or the whole part of a quotient. -/
def onNumbers? : Arithmetic → Nat → Nat → Option Nat
  | add, left, right => some ((left + right) % 256)
  | sub, left, right => some ((left + 256 - right) % 256)
  | mul, left, right => some (left * right % 256)
  | div, left, right => if right = 0 then none else some (left / right)

theorem map_result? (op : Arithmetic) (left right : Byte) :
    (op.result? left right).map UInt8.toNat = op.onNumbers? left.toNat right.toNat := by
  cases op with
  | add => simp [result?, onNumbers?, UInt8.toNat_add]
  | sub =>
      have bound := right.toNat_lt
      simp only [result?, onNumbers?, Option.map_some, UInt8.toNat_sub]
      congr 2
      omega
  | mul => simp [result?, onNumbers?, UInt8.toNat_mul]
  | div =>
      by_cases zero : right = 0
      · simp [result?, onNumbers?, zero]
      · have positive : right.toNat ≠ 0 := fun same => zero (UInt8.toNat_inj.mp same)
        simp [result?, onNumbers?, zero, positive]

end Arithmetic

namespace Condition

/-- The relation of two numbers that a condition asks for. -/
def Relates : Condition → Nat → Nat → Prop
  | eq, left, right => left = right
  | lt, left, right => left < right
  | le, left, right => left ≤ right
  | gt, left, right => right < left
  | ge, left, right => right ≤ left

instance : (condition : Condition) → (left right : Nat) →
    Decidable (condition.Relates left right)
  | eq, left, right => inferInstanceAs (Decidable (left = right))
  | lt, left, right => inferInstanceAs (Decidable (left < right))
  | le, left, right => inferInstanceAs (Decidable (left ≤ right))
  | gt, left, right => inferInstanceAs (Decidable (right < left))
  | ge, left, right => inferInstanceAs (Decidable (right ≤ left))

theorem holds_iff {condition : Condition} {left right : Byte} :
    condition.holds left right = true ↔ condition.Relates left.toNat right.toNat := by
  cases condition with
  | eq => simp [holds, Relates, UInt8.toNat_inj]
  | lt => simp [holds, Relates, UInt8.lt_iff_toNat_lt]
  | le => simp [holds, Relates, UInt8.le_iff_toNat_le]
  | gt => simp [holds, Relates, UInt8.lt_iff_toNat_lt]
  | ge => simp [holds, Relates, UInt8.le_iff_toNat_le]

end Condition

namespace Bitwise

/-- The operation on a number of so many bits. -/
def onNumber (op : Bitwise) (bits cell source : Nat) : Nat :=
  match op with
  | and => cell &&& source
  | or => cell ||| source
  | xor => cell ^^^ source
  | shiftRight => cell / 2 ^ source
  | shiftLeft => cell * 2 ^ source % 2 ^ bits

theorem onNumber_lt (op : Bitwise) {bits cell source : Nat} (fits : cell < 2 ^ bits)
    (narrow : source < 2 ^ bits) : op.onNumber bits cell source < 2 ^ bits := by
  cases op with
  | and => exact Nat.lt_of_le_of_lt Nat.and_le_left fits
  | or => exact Nat.or_lt_two_pow fits narrow
  | xor => exact Nat.xor_lt_two_pow fits narrow
  | shiftRight => exact Nat.lt_of_le_of_lt (Nat.div_le_self _ _) fits
  | shiftLeft => exact Nat.mod_lt _ (Nat.two_pow_pos bits)

theorem onNumber_shift_of_le {op : Bitwise} {bits cell source : Nat}
    (shifts : op = shiftRight ∨ op = shiftLeft) (fits : cell < 2 ^ bits)
    (far : bits ≤ source) : op.onNumber bits cell source = 0 := by
  rcases shifts with rfl | rfl
  · exact Nat.div_eq_of_lt (Nat.lt_of_lt_of_le fits (Nat.pow_le_pow_right (by decide) far))
  · exact Nat.mod_eq_zero_of_dvd ((Nat.pow_dvd_pow 2 far).mul_left cell)

/-- What 64 bits hold beyond the width is all that the operation on them adds. -/
theorem result_mod (op : Bitwise) {width : Width} {cell : UInt64} (source : Byte)
    (fits : cell.toNat < 2 ^ width.bits) :
    (op.result width cell source).toNat % 2 ^ width.bits =
      op.onNumber width.bits cell.toNat source.toNat := by
  have narrow : source.toNat < 2 ^ width.bits :=
    Nat.lt_of_lt_of_le source.toNat_lt (Nat.pow_le_pow_right (by decide) width.eight_le_bits)
  have exactly (same : (op.result width cell source).toNat =
      op.onNumber width.bits cell.toNat source.toNat) :
      (op.result width cell source).toNat % 2 ^ width.bits =
        op.onNumber width.bits cell.toNat source.toNat := by
    rw [same]
    exact Nat.mod_eq_of_lt (op.onNumber_lt fits narrow)
  have bound := width.bits_le
  cases op with
  | and => exact exactly (by simp [result, onNumber])
  | or => exact exactly (by simp [result, onNumber])
  | xor => exact exactly (by simp [result, onNumber])
  | shiftRight =>
      apply exactly
      by_cases far : width.bits ≤ source.toNat
      · rw [onNumber_shift_of_le (.inl rfl) fits far, result, if_pos far]
        rfl
      · have near : source.toNat < 64 := by omega
        rw [result, if_neg far, UInt64.toNat_shiftRight, UInt8.toNat_toUInt64,
          Nat.mod_eq_of_lt near, Nat.shiftRight_eq_div_pow]
        rfl
  | shiftLeft =>
      by_cases far : width.bits ≤ source.toNat
      · rw [onNumber_shift_of_le (.inr rfl) fits far, result, if_pos far]
        exact Nat.zero_mod _
      · -- The bits that are lost at the 64th are beyond the width anyway.
        have near : source.toNat < 64 := by omega
        rw [result, if_neg far, UInt64.toNat_shiftLeft, UInt8.toNat_toUInt64,
          Nat.mod_eq_of_lt near, Nat.shiftLeft_eq,
          Nat.mod_mod_of_dvd _ (Nat.pow_dvd_pow 2 bound)]
        rfl

end Bitwise

/-- The complement of 64 bits is that of the number in the width, and ones beyond it. -/
theorem complement_mod {width : Width} {cell : UInt64} (fits : cell.toNat < 2 ^ width.bits) :
    (~~~cell).toNat % 2 ^ width.bits = 2 ^ width.bits - 1 - cell.toNat := by
  have whole : 2 ^ width.bits * 2 ^ (64 - width.bits) = 2 ^ 64 := by
    rw [← pow_add, Nat.add_sub_of_le width.bits_le]
  have narrow : 2 ^ width.bits ≤ 2 ^ 64 := Nat.pow_le_pow_right (by decide) width.bits_le
  have ones : 2 ^ 64 - 1 - cell.toNat =
      2 ^ width.bits - 1 - cell.toNat + 2 ^ width.bits * (2 ^ (64 - width.bits) - 1) := by
    rw [Nat.mul_sub, whole]
    omega
  calc
    (~~~cell).toNat % 2 ^ width.bits = (2 ^ 64 - 1 - cell.toNat) % 2 ^ width.bits := by
      rw [UInt64.toNat_not]
      rfl
    _ = (2 ^ width.bits - 1 - cell.toNat) % 2 ^ width.bits := by
      rw [ones, Nat.add_mul_mod_self_left]
    _ = 2 ^ width.bits - 1 - cell.toNat := Nat.mod_eq_of_lt (by omega)

end ByteMachine
