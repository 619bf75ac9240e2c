import ByteMachine.Byte

namespace ByteMachine

/-! Rows of byte cells of a fixed length. -/

abbrev Cells (count : Nat) := Vector Byte count

namespace Cells

variable {count : Nat}

def zero (count : Nat) : Cells count :=
  Vector.replicate count 0

/-- The content of a cell; there are only zeros outside the row. -/
def byteAt (cells : Cells count) (index : Nat) : Byte :=
  cells[index]?.getD 0

/-- The contents of `length` cells from `start` on, as far as the row reaches. -/
def slice (cells : Cells count) (start length : Nat) : List Byte :=
  (cells.toList.drop start).take length

/-- Writes bytes into consecutive cells from `start` on, as far as the row reaches. -/
def overwrite (cells : Cells count) : (start : Nat) → List Byte → Cells count
  | _, [] => cells
  | start, byte :: bytes => overwrite (cells.setIfInBounds start byte) (start + 1) bytes

@[simp] theorem byteAt_zero (index : Nat) : (zero count).byteAt index = 0 := by
  simp [zero, byteAt, Vector.getElem?_replicate]
  split <;> rfl

theorem getElem_toList (cells : Cells count) {index : Nat}
    (within : index < cells.toList.length) : cells.toList[index] = cells.byteAt index := by
  have inside : index < count := by simpa using within
  simp [byteAt, inside]

theorem length_slice {cells : Cells count} {start length : Nat}
    (within : start + length ≤ count) : (cells.slice start length).length = length := by
  simp [slice]
  omega

theorem slice_one (cells : Cells count) {start : Nat} (within : start < count) :
    cells.slice start 1 = [cells.byteAt start] := by
  have inside : start < cells.toList.length := by simpa using within
  rw [slice, List.drop_eq_getElem_cons inside, getElem_toList, List.take_succ_cons,
    List.take_zero]

theorem slice_add (cells : Cells count) (start first second : Nat) :
    cells.slice start (first + second) =
      cells.slice start first ++ cells.slice (start + first) second := by
  simp [slice, List.take_add]

theorem getD_slice (cells : Cells count) {start length index : Nat} (inside : index < length) :
    (cells.slice start length).getD index 0 = cells.byteAt (start + index) := by
  rw [List.getD_eq_getElem?_getD, slice, List.getElem?_take_of_lt inside, List.getElem?_drop,
    Vector.getElem?_toList, byteAt]

theorem ext_byteAt {left right : Cells count}
    (same : ∀ index, left.byteAt index = right.byteAt index) : left = right := by
  apply Vector.toList_inj.mp
  apply List.ext_getElem
  · simp
  · intro index inLeft inRight
    rw [getElem_toList, getElem_toList, same]

theorem slice_eq_of_byteAt {left right : Cells count} {start length : Nat}
    (same : ∀ index, start ≤ index → index < start + length →
      left.byteAt index = right.byteAt index) :
    left.slice start length = right.slice start length := by
  apply List.ext_getElem
  · simp [slice]
  · intro index inLeft inRight
    simp only [slice, List.length_take, List.length_drop, Vector.length_toList] at inLeft
    simp only [slice, List.getElem_take, List.getElem_drop, getElem_toList]
    exact same (start + index) (by omega) (by omega)

@[simp] theorem overwrite_nil (cells : Cells count) (start : Nat) :
    cells.overwrite start [] = cells := rfl

@[simp] theorem overwrite_cons (cells : Cells count) (start : Nat) (byte : Byte)
    (bytes : List Byte) :
    cells.overwrite start (byte :: bytes) =
      overwrite (cells.setIfInBounds start byte) (start + 1) bytes := rfl

theorem byteAt_set (cells : Cells count) (start index : Nat) (byte : Byte) :
    byteAt (cells.setIfInBounds start byte) index =
      if start = index ∧ start < count then byte else cells.byteAt index := by
  unfold byteAt
  rw [Vector.getElem?_setIfInBounds]
  by_cases same : start = index
  · by_cases within : start < count
    · simp [same, same ▸ within]
    · simp [same, same ▸ within]
  · simp [same]

/-- An overwritten cell holds the byte written to it, and any other cell what it held. -/
theorem byteAt_overwrite (cells : Cells count) (start index : Nat) (bytes : List Byte)
    (within : start + bytes.length ≤ count) :
    (cells.overwrite start bytes).byteAt index =
      if start ≤ index ∧ index < start + bytes.length then bytes.getD (index - start) 0
      else cells.byteAt index := by
  induction bytes generalizing cells start with
  | nil =>
      have outside : ¬(start ≤ index ∧ index < start + ([] : List Byte).length) := by simp
      rw [overwrite_nil, if_neg outside]
  | cons byte bytes ih =>
      simp only [List.length_cons] at within ⊢
      rw [overwrite_cons, ih _ _ (by omega), byteAt_set]
      by_cases later : start + 1 ≤ index ∧ index < start + 1 + bytes.length
      · have inside : start ≤ index ∧ index < start + (bytes.length + 1) := by omega
        have shift : index - start = (index - (start + 1)) + 1 := by omega
        rw [if_pos later, if_pos inside, shift, List.getD_cons_succ]
      · rw [if_neg later]
        by_cases same : start = index
        · have here : start = index ∧ start < count := by omega
          have inside : start ≤ index ∧ index < start + (bytes.length + 1) := by omega
          rw [if_pos here, if_pos inside, same, Nat.sub_self, List.getD_cons_zero]
        · have outside : ¬(start ≤ index ∧ index < start + (bytes.length + 1)) := by omega
          rw [if_neg (fun here => same here.1), if_neg outside]

/-- The cells before and behind the overwritten ones are as they were. -/
theorem toList_overwrite (cells : Cells count) (start : Nat) (bytes : List Byte)
    (within : start + bytes.length ≤ count) :
    (cells.overwrite start bytes).toList =
      cells.toList.take start ++ bytes ++ cells.toList.drop (start + bytes.length) := by
  induction bytes generalizing cells start with
  | nil => simp
  | cons byte bytes ih =>
      simp only [List.length_cons] at within ⊢
      have here : start < cells.toList.length := by
        rw [Vector.length_toList]
        omega
      have length : (cells.toList.take start).length = start :=
        List.length_take_of_le (Nat.le_of_lt here)
      have first : (cells.toList.set start byte).take (start + 1) =
          cells.toList.take start ++ [byte] := by
        rw [List.take_set, List.take_succ_eq_append_getElem here,
          List.set_append_right _ _ (Nat.le_of_eq length), length, Nat.sub_self,
          List.set_cons_zero]
      rw [overwrite_cons, ih _ _ (by omega), Vector.toList_setIfInBounds, first,
        List.drop_set_of_lt (by omega), Nat.add_right_comm start 1 bytes.length]
      simp [Nat.add_assoc]

theorem overwrite_append (cells : Cells count) (start : Nat) (first second : List Byte) :
    cells.overwrite start (first ++ second) =
      (cells.overwrite start first).overwrite (start + first.length) second := by
  induction first generalizing cells start with
  | nil => rfl
  | cons byte first ih =>
      rw [List.cons_append, overwrite_cons, ih, overwrite_cons, List.length_cons,
        Nat.add_right_comm start 1 first.length, Nat.add_assoc]

theorem slice_overwrite_self (cells : Cells count) (start : Nat) (bytes : List Byte)
    (within : start + bytes.length ≤ count) :
    (cells.overwrite start bytes).slice start bytes.length = bytes := by
  have length : (cells.toList.take start).length = start := by
    rw [List.length_take, Vector.length_toList]
    omega
  rw [slice, toList_overwrite cells start bytes within, List.append_assoc,
    List.drop_left' length, List.take_left]

theorem slice_overwrite_of_disjoint (cells : Cells count) {start other length : Nat}
    (bytes : List Byte) (within : start + bytes.length ≤ count)
    (apart : other + length ≤ start ∨ start + bytes.length ≤ other) :
    (cells.overwrite start bytes).slice other length = cells.slice other length := by
  apply slice_eq_of_byteAt
  intro index above below
  rw [byteAt_overwrite cells start index bytes within, if_neg (by omega)]

/-- In which order two rows of cells are overwritten does not matter if they do not meet. -/
theorem overwrite_comm (cells : Cells count) {start other : Nat} (first second : List Byte)
    (within : start + first.length ≤ count) (inside : other + second.length ≤ count)
    (apart : start + first.length ≤ other) :
    (cells.overwrite start first).overwrite other second =
      (cells.overwrite other second).overwrite start first := by
  apply ext_byteAt
  intro index
  rw [byteAt_overwrite _ _ _ _ inside, byteAt_overwrite _ _ _ _ within,
    byteAt_overwrite _ _ _ _ within, byteAt_overwrite _ _ _ _ inside]
  by_cases early : start ≤ index ∧ index < start + first.length
  · rw [if_neg (by omega), if_pos early, if_pos early]
  · rw [if_neg early, if_neg early]

end Cells

end ByteMachine
