namespace ByteMachine.Text

/-! Unsigned numerals of 64 bits. -/

/-- The value of a digit; letters of either case follow nine. -/
def digitValue? (char : Char) : Option Nat :=
  if '0' ≤ char ∧ char ≤ '9' then some (char.toNat - '0'.toNat)
  else if 'a' ≤ char ∧ char ≤ 'z' then some (char.toNat - 'a'.toNat + 10)
  else if 'A' ≤ char ∧ char ≤ 'Z' then some (char.toNat - 'A'.toNat + 10)
  else none

def digit? (base : Nat) (char : Char) : Option Nat :=
  (digitValue? char).filter (· < base)

def digits? (base : Nat) (chars : List Char) : Option Nat :=
  chars.foldlM (fun number char => (digit? base char).map (number * base + ·)) 0

/-- The number that a numeral denotes: a plus sign may come first, then at least one digit;
the number fits in 64 bits. -/
def numeral? (base : Nat) (chars : List Char) : Option Nat :=
  let digits :=
    match chars with
    | '+' :: rest => rest
    | _ => chars
  if digits.isEmpty then none
  else (digits? base digits).filter (· < UInt64.size)

end ByteMachine.Text
