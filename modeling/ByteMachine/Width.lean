namespace ByteMachine

/-! The four widths of a stored value. -/

inductive Width where
  | byte
  | word
  | doubleWord
  | quadWord
  deriving DecidableEq, Repr

namespace Width

def all : List Width :=
  [byte, word, doubleWord, quadWord]

def size : Width → Nat
  | byte => 1
  | word => 2
  | doubleWord => 4
  | quadWord => 8

def bits (width : Width) : Nat :=
  8 * width.size

/-- The 64-bit number with a one for each bit of the width. No shift by fewer than 64 bits
gives that of a quad word. -/
def mask : Width → UInt64
  | quadWord => 0xffffffffffffffff
  | width => (1 <<< UInt64.ofNat width.bits) - 1

def ofSize? : Nat → Option Width
  | 1 => some byte
  | 2 => some word
  | 4 => some doubleWord
  | 8 => some quadWord
  | _ => none

def text : Width → String
  | byte => "byte"
  | word => "word"
  | doubleWord => "double word"
  | quadWord => "quad word"

/-- The width of each half of a value, if the value has halves. -/
def half? : Width → Option Width
  | byte => none
  | word => some byte
  | doubleWord => some word
  | quadWord => some doubleWord

/-- The width of two values side by side, if it is one of the four. -/
def double? : Width → Option Width
  | byte => some word
  | word => some doubleWord
  | doubleWord => some quadWord
  | quadWord => none

theorem mem_all (width : Width) : width ∈ all := by
  cases width <;> simp [all]

theorem size_pos (width : Width) : 0 < width.size := by
  cases width <;> decide

theorem size_le (width : Width) : width.size ≤ 8 := by
  cases width <;> decide

@[simp] theorem ofSize?_size (width : Width) : ofSize? width.size = some width := by
  cases width <;> rfl

theorem size_of_ofSize? {count : Nat} {width : Width}
    (found : ofSize? count = some width) : width.size = count := by
  unfold ofSize? at found
  split at found <;> cases found <;> rfl

theorem size_double {width wide : Width} (found : width.double? = some wide) :
    wide.size = 2 * width.size := by
  cases width <;> cases found <;> rfl

theorem size_half {width narrow : Width} (found : width.half? = some narrow) :
    width.size = 2 * narrow.size := by
  cases width <;> cases found <;> rfl

theorem half?_eq_some_iff {width narrow : Width} :
    width.half? = some narrow ↔ narrow.double? = some width := by
  cases width <;> cases narrow <;> decide

end Width

end ByteMachine
