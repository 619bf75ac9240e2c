import ByteMachine.Byte
import ByteMachine.Width

namespace ByteMachine

/-! Operations on bytes and cells that instructions name: arithmetic, bitwise
operations and conditions. -/

inductive Arithmetic where
  | add
  | sub
  | mul
  | div
  deriving DecidableEq, Repr

/-- Arithmetic wraps modulo 256. Division truncates, and there is none by zero. -/
def Arithmetic.result? : Arithmetic → Byte → Byte → Option Byte
  | .add, left, right => some (left + right)
  | .sub, left, right => some (left - right)
  | .mul, left, right => some (left * right)
  | .div, left, right => if right = 0 then none else some (left / right)

theorem Arithmetic.result?_eq_none_iff {op : Arithmetic} {left right : Byte} :
    op.result? left right = none ↔ op = .div ∧ right = 0 := by
  cases op <;> simp [result?]

inductive Bitwise where
  | and
  | or
  | xor
  | shiftRight
  | shiftLeft
  deriving DecidableEq, Repr

/-- The new content of a cell, computed on 64 bits. A shift by the width's bits or more
clears the cell, for 64 bits are only shifted by less than 64; bits that come to stand beyond
the width are dropped when the cell is written. -/
def Bitwise.result (op : Bitwise) (width : Width) (cell : UInt64) (source : Byte) : UInt64 :=
  match op with
  | .and => cell &&& source.toUInt64
  | .or => cell ||| source.toUInt64
  | .xor => cell ^^^ source.toUInt64
  | .shiftRight => if width.bits ≤ source.toNat then 0 else cell >>> source.toUInt64
  | .shiftLeft => if width.bits ≤ source.toNat then 0 else cell <<< source.toUInt64

inductive Condition where
  | eq
  | lt
  | le
  | gt
  | ge
  deriving DecidableEq, Repr

def Condition.holds : Condition → Byte → Byte → Bool
  | .eq, left, right => left = right
  | .lt, left, right => left < right
  | .le, left, right => left ≤ right
  | .gt, left, right => right < left
  | .ge, left, right => right ≤ left

end ByteMachine
