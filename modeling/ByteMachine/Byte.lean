namespace ByteMachine

/-! Bytes, their hexadecimal text, and big-endian byte lists. -/

abbrev Byte := UInt8

namespace Byte

def digits (byte : Byte) : List Char :=
  [(byte.toNat / 16).digitChar, (byte.toNat % 16).digitChar]

def hex (byte : Byte) : String :=
  String.ofList byte.digits

/-- A byte as it is written in assembly text and messages, such as `0x0a`. -/
def text (byte : Byte) : String :=
  "0x" ++ byte.hex

@[simp] theorem length_digits (byte : Byte) : byte.digits.length = 2 := rfl

@[simp] theorem toList_text (byte : Byte) :
    byte.text.toList = '0' :: 'x' :: byte.digits := by
  simp [text, hex]

def texts (bytes : List Byte) : String :=
  String.intercalate " " (bytes.map text)

end Byte

/-- The last `count` base-256 digits of a number, most significant first. -/
def bigEndian : Nat → Nat → List Byte
  | 0, _ => []
  | count + 1, number => bigEndian count (number / 256) ++ [UInt8.ofNat number]

/-- The number whose base-256 digits are the given bytes, most significant first. -/
def ofBigEndian (bytes : List Byte) : Nat :=
  bytes.foldl (fun total byte => total * 256 + byte.toNat) 0

@[simp] theorem length_bigEndian (count number : Nat) :
    (bigEndian count number).length = count := by
  induction count generalizing number with
  | zero => rfl
  | succ count ih => simp [bigEndian, ih]

@[simp] theorem ofBigEndian_nil : ofBigEndian [] = 0 := rfl

@[simp] theorem ofBigEndian_concat (bytes : List Byte) (byte : Byte) :
    ofBigEndian (bytes ++ [byte]) = ofBigEndian bytes * 256 + byte.toNat := by
  simp [ofBigEndian]

end ByteMachine
