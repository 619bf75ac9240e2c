import ByteMachine.Proofs.Value

namespace ByteMachine

/-! Packed values are the unsigned integers of their width. Whatever operations a value is
built by, zeros stand behind its bytes, so its width and its number determine it. -/

theorem ofBigEndian_append (first second : List Byte) :
    ofBigEndian (first ++ second) =
      ofBigEndian first * 256 ^ second.length + ofBigEndian second := by
  induction second using List.reverseRecOn with
  | nil => simp
  | append_singleton second byte induction =>
      rw [← List.append_assoc, ofBigEndian_concat, induction, ofBigEndian_concat,
        List.length_append, List.length_singleton, pow_succ]
      ring

theorem ofBigEndian_mod (bytes : List Byte) :
    ofBigEndian bytes % 256 = (bytes.getD (bytes.length - 1) 0).toNat := by
  induction bytes using List.reverseRecOn with
  | nil => rfl
  | append_singleton bytes byte _ =>
      have small := byte.toNat_lt
      have last : (bytes ++ [byte]).getD ((bytes ++ [byte]).length - 1) 0 = byte := by simp
      rw [last, ofBigEndian_concat]
      omega

namespace Packed

variable {value left right high low : Packed}

/-- A value that some sequence of operations comes to. -/
inductive Built : Packed → Prop where
  | ofByte (byte : Byte) : Built (ofByte byte)
  | word (number : UInt16) : Built (word number)
  | doubleWord (number : UInt32) : Built (doubleWord number)
  | quadWord (number : UInt64) : Built (quadWord number)
  | ofUInt64 (width : Width) (number : UInt64) : Built (ofUInt64 width number)
  | ofBytes {bytes : List Byte} {value : Packed} (found : ofBytes? bytes = some value) :
      Built value
  | pair {high low value : Packed} (first : Built high) (second : Built low)
      (found : pair? high low = some value) : Built value
  | high {value high low : Packed} (whole : Built value)
      (found : value.split? = some (high, low)) : Built high
  | low {value high low : Packed} (whole : Built value)
      (found : value.split? = some (high, low)) : Built low
  | resize {value : Packed} (before : Built value) (width : Width) : Built (value.resize width)

/-- Every operation packs its result into cleared cells, so what stood behind the bytes of
its arguments is not carried on. -/
theorem Built.padded (built : Built value) : value.Padded := by
  cases built with
  | ofByte byte => exact padded_pack rfl
  | word number => exact padded_ofUInt64 _ _
  | doubleWord number => exact padded_ofUInt64 _ _
  | quadWord number => exact padded_ofUInt64 _ _
  | ofUInt64 width number => exact padded_ofUInt64 width number
  | ofBytes found => exact padded_of_ofBytes? found
  | pair first second found => exact padded_of_pair? found
  | high whole found => exact (padded_of_split? found).1
  | low whole found => exact (padded_of_split? found).2
  | resize before width => exact padded_ofUInt64 _ _

namespace Padded

theorem eq_iff (padded : left.Padded) (other : right.Padded) :
    left = right ↔ left.width = right.width ∧ left.toUInt64 = right.toUInt64 := by
  constructor
  · rintro rfl
    exact ⟨rfl, rfl⟩
  · rintro ⟨widths, numbers⟩
    apply padded.ext other
    rw [← left.bigEndian_toNat, ← right.bigEndian_toNat, widths, ← left.toNat_toUInt64,
      ← right.toNat_toUInt64, numbers]

theorem ofUInt64_toUInt64 (padded : value.Padded) :
    ofUInt64 value.width value.toUInt64 = value := by
  apply (padded_ofUInt64 _ _).ext padded
  rw [bytes_ofUInt64, value.toNat_toUInt64, value.bigEndian_toNat]

theorem split?_eq_some_iff_pair? (padded : value.Padded) (first : high.Padded)
    (second : low.Padded) :
    value.split? = some (high, low) ↔ pair? high low = some value := by
  constructor
  · intro parted
    have bytes := bytes_of_split? parted
    obtain ⟨half, same, -, -⟩ := split?_eq_some_iff.mp parted
    refine pair?_eq_some_iff.mpr ⟨same.symm, Width.half?_eq_some_iff.mp half, ?_⟩
    rw [← bytes]
    exact padded.pack_bytes.symm
  · intro paired
    have bytes := bytes_of_pair? paired
    obtain ⟨same, double, -⟩ := pair?_eq_some_iff.mp paired
    refine split?_eq_some_iff.mpr ⟨Width.half?_eq_some_iff.mpr double, same.symm, ?_, ?_⟩
    · rw [bytes, List.take_left' high.length_bytes]
      exact first.pack_bytes.symm
    · rw [bytes, ← same, List.drop_left' high.length_bytes, same]
      exact second.pack_bytes.symm

end Padded

theorem exists_split?_iff : (∃ halves, value.split? = some halves) ↔ value.width ≠ .byte := by
  unfold split?
  cases value.width <;> simp [Width.half?]

theorem exists_pair?_iff :
    (∃ value, pair? high low = some value) ↔
      high.width = low.width ∧ high.width ≠ .quadWord := by
  unfold pair?
  by_cases same : high.width = low.width
  · rw [if_pos same, ← same]
    cases high.width <;> simp [Width.double?]
  · simp [same]

theorem toNat_of_pair? (found : pair? high low = some value) :
    value.toNat = high.toNat * 2 ^ (8 * high.width.size) + low.toNat := by
  obtain ⟨same, -, -⟩ := pair?_eq_some_iff.mp found
  rw [toNat, bytes_of_pair? found, ofBigEndian_append, low.length_bytes, ← same, pow_mul]
  rfl

theorem toNat_lowByte (value : Packed) : value.lowByte.toNat = value.toNat % 256 := by
  have positive := value.width.size_pos
  rw [lowByte, byteAt_cells value (by omega), toNat, ofBigEndian_mod, value.length_bytes]

/-- A width on the way is not seen if it has room for the value or for the result. -/
theorem resize_resize {first second : Width}
    (wide : min value.width.size second.size ≤ first.size) :
    (value.resize first).resize second = value.resize second := by
  have numbers : value.toNat % 2 ^ first.bits % 2 ^ second.bits =
      value.toNat % 2 ^ second.bits := by
    rcases min_le_iff.mp wide with fits | narrow
    · have bound : value.width.bits ≤ first.bits := Nat.mul_le_mul_left 8 fits
      have small : value.toNat < 2 ^ first.bits :=
        Nat.lt_of_lt_of_le value.toNat_lt (Nat.pow_le_pow_right (by decide) bound)
      rw [Nat.mod_eq_of_lt small]
    · have bound : second.bits ≤ first.bits := Nat.mul_le_mul_left 8 narrow
      exact Nat.mod_mod_of_dvd _ (Nat.pow_dvd_pow 2 bound)
  apply ((padded_ofUInt64 _ _).eq_iff (padded_ofUInt64 _ _)).mpr
  refine ⟨rfl, ?_⟩
  apply UInt64.toNat_inj.mp
  rw [toNat_toUInt64, toNat_toUInt64]
  change ((value.resize first).resize second).toNat = (value.resize second).toNat
  rw [toNat_resize, toNat_resize, toNat_resize, numbers]

/-- What is built behaves as an unsigned integer of its width, and nothing else of it can be
told. -/
theorem integer_laws :
    (∀ value, Built value →
      ∀ index, value.width.size ≤ index → value.cells.byteAt index = 0) ∧
    (∀ left right, Built left → Built right →
      (left = right ↔ left.width = right.width ∧ left.toUInt64 = right.toUInt64)) ∧
    (∀ width number,
      (ofUInt64 width number).toUInt64.toNat = number.toNat % 2 ^ (8 * width.size)) ∧
    (∀ value, Built value →
      ofUInt64 value.width value.toUInt64 = value ∧
      ofBytes? value.bytes = some value ∧
      value.lowByte.toNat = value.toUInt64.toNat % 256) ∧
    (∀ value, Built value →
      ((∃ halves, value.split? = some halves) ↔ value.width ≠ .byte)) ∧
    (∀ high low, Built high → Built low →
      ((∃ value, pair? high low = some value) ↔
        high.width = low.width ∧ high.width ≠ .quadWord)) ∧
    (∀ value high low, Built value → Built high → Built low →
      (value.split? = some (high, low) ↔ pair? high low = some value)) ∧
    (∀ high low value, Built high → Built low → pair? high low = some value →
      value.toUInt64.toNat =
        high.toUInt64.toNat * 2 ^ (8 * high.width.size) + low.toUInt64.toNat) ∧
    ∀ value first second, Built value → min value.width.size second.size ≤ first.size →
      (value.resize first).resize second = value.resize second := by
  refine ⟨?_, ?_, ?_, ?_, ?_, ?_, ?_, ?_, ?_⟩
  · intro value built
    exact built.padded
  · intro left right built other
    exact built.padded.eq_iff other.padded
  · intro width number
    rw [toNat_toUInt64]
    exact toNat_ofUInt64 width number
  · intro value built
    refine ⟨built.padded.ofUInt64_toUInt64, built.padded.ofBytes?_bytes, ?_⟩
    rw [toNat_toUInt64]
    exact value.toNat_lowByte
  · intro value built
    exact exists_split?_iff
  · intro high low first second
    exact exists_pair?_iff
  · intro value high low built first second
    exact built.padded.split?_eq_some_iff_pair? first.padded second.padded
  · intro high low value first second found
    rw [toNat_toUInt64, toNat_toUInt64, toNat_toUInt64]
    exact toNat_of_pair? found
  · intro value first second built wide
    exact resize_resize wide

/-- All bits of eight bytes count. Cut in two and put together again they are the same value,
and a detour over four bytes on the way to one changes nothing. -/
theorem integer_laws_quad_word :
    let value := quadWord 0xffffffff00000001
    let high := doubleWord 0xffffffff
    let low := doubleWord 1
    (∀ index, 8 ≤ index → value.cells.byteAt index = 0) ∧
    (∀ index, 4 ≤ index → high.cells.byteAt index = 0) ∧
    high ≠ low ∧
    ofUInt64 .quadWord value.toUInt64 = value ∧
    (∃ halves, value.split? = some halves) ∧ (∃ paired, pair? high low = some paired) ∧
    value.split? = some (high, low) ∧ pair? high low = some value ∧
    value.toUInt64.toNat = high.toUInt64.toNat * 2 ^ 32 + low.toUInt64.toNat ∧
    (value.resize .doubleWord).resize .byte = value.resize .byte := by
  intro value high low
  obtain ⟨padded, equal, -, represented, parts, pairs, inverse, sum, resized⟩ := integer_laws
  have whole : Built value := .quadWord _
  have first : Built high := .doubleWord _
  have second : Built low := .doubleWord _
  have paired : pair? high low = some value := by decide +kernel
  refine ⟨padded value whole, padded high first, ?_, (represented value whole).1,
    (parts value whole).mpr (by decide), (pairs high low first second).mpr (by decide),
    (inverse value high low whole first second).mpr paired, paired,
    sum high low value first second paired, resized value .doubleWord .byte whole (by decide)⟩
  intro same
  exact absurd ((equal high low first second).mp same).2 (by decide +kernel)

end Packed

end ByteMachine
