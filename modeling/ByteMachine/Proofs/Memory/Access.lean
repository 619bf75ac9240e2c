import ByteMachine.Proofs.Memory

namespace ByteMachine

/-! The laws of wide accesses. A value that was written is read again, cells apart from it are
not touched, and an access of twice a width is two accesses side by side. -/

namespace Memory

variable {memory written left : Memory} {address other : Byte} {width wide : Width}
  {value high low : Value} {error : AccessError}

/-- The address of the second half of an access of twice a width. -/
def behind (address : Byte) (width : Width) : Byte :=
  address + UInt8.ofNat width.size

theorem toNat_behind (within : address.toNat + 2 * width.size ≤ size) :
    (behind address width).toNat = address.toNat + width.size := by
  have positive := width.size_pos
  have bound : address.toNat + 2 * width.size ≤ 256 := within
  have small : width.size < UInt8.size := Nat.lt_of_le_of_lt width.size_le (by decide)
  rw [behind, UInt8.toNat_add, UInt8.toNat_ofNat_of_lt' small]
  exact Nat.mod_eq_of_lt (by omega)

theorem exists_read_iff :
    (∃ value, memory.read address width = .ok value) ↔
      address.toNat + width.size ≤ size := by
  constructor
  · rintro ⟨value, loaded⟩
    exact (read_eq_ok_iff.mp loaded).1
  · intro within
    obtain ⟨value, loaded, -⟩ := read_of_le memory within
    exact ⟨value, loaded⟩

theorem read_eq_of_slice
    (same : written.cells.slice other.toNat width.size =
      memory.cells.slice other.toNat width.size) :
    written.read other width = memory.read other width := by
  unfold read
  rw [same]

namespace Action

theorem write_eq_ok_iff :
    write address value memory = .ok () written ↔
      address.toNat + value.width.size ≤ size ∧
        written = ⟨memory.cells.overwrite address.toNat value.bytes⟩ := by
  by_cases within : address.toNat + value.width.size ≤ size
  · simp [write_of_le within, within, eq_comm]
  · simp [write_of_lt (Nat.lt_of_not_le within), within]

theorem exists_write_iff :
    (∃ written, write address value memory = .ok () written) ↔
      address.toNat + value.width.size ≤ size := by
  constructor
  · rintro ⟨written, done⟩
    exact (write_eq_ok_iff.mp done).1
  · intro within
    exact ⟨_, write_of_le within⟩

theorem read_of_write (done : write address value memory = .ok () written) :
    written.read address value.width = .ok value := by
  obtain ⟨within, rfl⟩ := write_eq_ok_iff.mp done
  refine read_eq_ok_iff.mpr ⟨within, rfl, ?_⟩
  rw [← value.length_bytes] at within ⊢
  exact (Cells.slice_overwrite_self _ _ _ within).symm

theorem read_of_write_apart (done : write address value memory = .ok () written)
    (apart : other.toNat + width.size ≤ address.toNat ∨
      address.toNat + value.width.size ≤ other.toNat) :
    written.read other width = memory.read other width := by
  obtain ⟨within, rfl⟩ := write_eq_ok_iff.mp done
  rw [← value.length_bytes] at within apart
  exact read_eq_of_slice (Cells.slice_overwrite_of_disjoint _ _ within apart)

end Action

theorem read_double (double : width.double? = some wide)
    (within : address.toNat + 2 * width.size ≤ size) :
    ∃ high low value, memory.read address width = .ok high ∧
      memory.read (behind address width) width = .ok low ∧
      high.pair? low = some value ∧ memory.read address wide = .ok value := by
  have second := toNat_behind within
  obtain ⟨high, front, highWidth, highBytes⟩ :=
    read_of_le memory (show address.toNat + width.size ≤ size by omega)
  obtain ⟨low, back, lowWidth, lowBytes⟩ :=
    read_of_le memory (show (behind address width).toNat + width.size ≤ size by omega)
  obtain ⟨value, paired, valueWidth, valueBytes⟩ :=
    Value.exists_pair (highWidth.trans lowWidth.symm) (highWidth ▸ double)
  refine ⟨high, low, value, front, back, paired, ?_⟩
  have size := Width.size_double double
  refine read_eq_ok_iff.mpr ⟨by omega, valueWidth, ?_⟩
  rw [valueBytes, highBytes, lowBytes, second, size, Nat.two_mul, Cells.slice_add]

namespace Action

theorem write_then (first : write address high memory = .ok () left) :
    (do write address high; write other low) memory = write other low left := by
  change EStateM.bind (write address high) (fun _ => write other low) memory = _
  unfold EStateM.bind
  rw [first]

theorem write_pair (same : high.width = low.width) (double : high.width.double? = some wide)
    (within : address.toNat + 2 * high.width.size ≤ size) :
    ∃ value written, high.pair? low = some value ∧
      write address value memory = .ok () written ∧
      (do write address high; write (behind address high.width) low) memory =
        .ok () written ∧
      (do write (behind address high.width) low; write address high) memory =
        .ok () written := by
  obtain ⟨value, paired, valueWidth, valueBytes⟩ := Value.exists_pair same double
  have second := toNat_behind within
  have lowLength := low.length_bytes
  have highLength := high.length_bytes
  rw [← same] at lowLength
  have front : address.toNat + high.width.size ≤ size := by omega
  have back : (behind address high.width).toNat + low.width.size ≤ size := by
    rw [second, ← same]
    omega
  have whole : address.toNat + value.width.size ≤ size := by
    rw [valueWidth, Width.size_double double]
    exact within
  have joined : memory.cells.overwrite address.toNat value.bytes =
      (memory.cells.overwrite address.toNat high.bytes).overwrite
        (behind address high.width).toNat low.bytes := by
    rw [valueBytes, Cells.overwrite_append, highLength, second]
  have swapped := memory.cells.overwrite_comm high.bytes low.bytes
    (show address.toNat + high.bytes.length ≤ size by omega)
    (show (behind address high.width).toNat + low.bytes.length ≤ size by omega) (by omega)
  refine ⟨value, _, paired, write_of_le whole, ?_, ?_⟩
  · rw [write_then (write_of_le front), write_of_le back, joined]
  · rw [write_then (write_of_le back), write_of_le front, joined, swapped]

end Action

/-- An access succeeds just where it stays in memory. A write that fails changes nothing; one
that succeeds is read again and is not seen elsewhere. Half by half, reads and writes come to
the same as at once, the halves of a write in either order. -/
theorem access_laws (memory : Memory) (address : Byte) :
    (∀ width, (∃ value, memory.read address width = .ok value) ↔
      address.toNat + width.size ≤ size) ∧
    (∀ value, (∃ written, Action.write address value memory = .ok () written) ↔
      address.toNat + value.width.size ≤ size) ∧
    (∀ value error left, Action.write address value memory = .error error left →
      left = memory) ∧
    (∀ value written, Action.write address value memory = .ok () written →
      written.read address value.width = .ok value ∧
      ∀ other width, other.toNat + width.size ≤ address.toNat ∨
          address.toNat + value.width.size ≤ other.toNat →
        written.read other width = memory.read other width) ∧
    (∀ width wide, width.double? = some wide → address.toNat + 2 * width.size ≤ size →
      ∃ high low value, memory.read address width = .ok high ∧
        memory.read (behind address width) width = .ok low ∧
        high.pair? low = some value ∧ memory.read address wide = .ok value) ∧
    ∀ high low wide, high.width = low.width → high.width.double? = some wide →
      address.toNat + 2 * high.width.size ≤ size →
      ∃ value written, high.pair? low = some value ∧
        Action.write address value memory = .ok () written ∧
        (do Action.write address high; Action.write (behind address high.width) low) memory =
          .ok () written ∧
        (do Action.write (behind address high.width) low; Action.write address high) memory =
          .ok () written := by
  refine ⟨?_, ?_, ?_, ?_, ?_, ?_⟩
  · intro width
    exact exists_read_iff
  · intro value
    exact Action.exists_write_iff
  · intro value error left failed
    exact (Action.write_eq_error_iff.mp failed).2.2
  · intro value written done
    exact ⟨Action.read_of_write done, fun other width apart =>
      Action.read_of_write_apart done apart⟩
  · intro width wide double within
    exact read_double double within
  · intro high low wide same double within
    exact Action.write_pair same double within

/-- Eight bytes fit just in front of the end of memory, written in two halves from behind.
Four bytes nearer to the end do not fit, and the two that would are not written. -/
theorem access_laws_at_end :
    let high := Value.doubleWord 0x01020304
    let low := Value.doubleWord 0x05060708
    let whole := Value.quadWord 0x0102030405060708
    (∃ written, Action.write 0xf8 whole zero = .ok () written ∧
      (do Action.write 0xfc low; Action.write 0xf8 high) zero = .ok () written ∧
      written.read 0xf8 .quadWord = .ok whole ∧
      written.read 0xf7 .byte = zero.read 0xf7 .byte ∧
      (∃ first second value, written.read 0xf8 .doubleWord = .ok first ∧
        written.read 0xfc .doubleWord = .ok second ∧ first.pair? second = some value ∧
        written.read 0xf8 .quadWord = .ok value)) ∧
    ∃ left, Action.write 0xfe high zero = .error (.outOfRange 0xfe .doubleWord) left ∧
      left = zero := by
  intro high low whole
  obtain ⟨value, written, paired, done, -, swapped⟩ :=
    (access_laws zero 0xf8).2.2.2.2.2 high low .quadWord rfl rfl (by decide)
  obtain rfl : value = whole := by
    have known : high.pair? low = some whole := by decide +kernel
    exact Option.some.inj (paired.symm.trans known)
  obtain ⟨again, elsewhere⟩ := (access_laws zero 0xf8).2.2.2.1 whole written done
  have halves := (access_laws written 0xf8).2.2.2.2.1 .doubleWord .quadWord rfl (by decide)
  have failed : Action.write 0xfe high zero = .error (.outOfRange 0xfe .doubleWord) zero :=
    Action.write_of_lt (by decide)
  exact ⟨⟨written, done, swapped, again, elsewhere 0xf7 .byte (.inl (by decide)), halves⟩,
    zero, failed, (access_laws zero 0xfe).2.2.1 high _ zero failed⟩

end Memory

end ByteMachine
