import Mathlib.Data.List.Forall2
import Mathlib.Data.Nat.Digits.Defs
import ByteMachine.Proofs.Assembly.Words

namespace ByteMachine

/-! The numbers that words denote, of any number of digits. A word is read as its number, if
that has at most 64 bits. -/

namespace Text

variable {base number : Nat} {char : Char} {chars : List Char}

/-- The character is a digit of this value. Letters may be of either case. -/
def DigitOf (base : Nat) (char : Char) (value : Nat) : Prop :=
  value < base ∧ (char = value.digitChar ∨ char = value.digitChar.toUpper)

/-- The characters are digits, the highest first, and make the number. -/
def IsNumeral (base : Nat) (chars : List Char) (number : Nat) : Prop :=
  chars ≠ [] ∧ ∃ values, List.Forall₂ (DigitOf base) chars values ∧
    number = Nat.ofDigits base values.reverse

theorem digitValue?_of_not_ascii (large : 128 ≤ char.toNat) : digitValue? char = none := by
  unfold digitValue?
  rw [if_neg, if_neg, if_neg]
  · rintro ⟨-, below⟩
    have small : char.toNat ≤ 90 := below
    omega
  · rintro ⟨-, below⟩
    have small : char.toNat ≤ 122 := below
    omega
  · rintro ⟨-, below⟩
    have small : char.toNat ≤ 57 := below
    omega

theorem digit?_eq_some_iff (small : base ≤ 16) {value : Nat} :
    digit? base char = some value ↔ DigitOf base char value := by
  have shown : ∀ value < 16, ∀ char,
      char = value.digitChar ∨ char = value.digitChar.toUpper →
        digitValue? char = some value := by
    have table : ∀ value < 16, digitValue? value.digitChar = some value ∧
        digitValue? value.digitChar.toUpper = some value := by decide
    rintro value bound char (rfl | rfl)
    · exact (table value bound).1
    · exact (table value bound).2
  have named : ∀ value < 16, ∀ char, digitValue? char = some value →
      char = value.digitChar ∨ char = value.digitChar.toUpper := by
    intro value bound char found
    have table : ∀ code < 128, ∀ value < 16, digitValue? (Char.ofNat code) = some value →
        Char.ofNat code = value.digitChar ∨ Char.ofNat code = value.digitChar.toUpper := by
      decide +kernel
    by_cases ascii : char.toNat < 128
    · rw [← Char.ofNat_toNat char] at found ⊢
      exact table _ ascii value bound found
    · rw [digitValue?_of_not_ascii (Nat.le_of_not_lt ascii)] at found
      cases found
  unfold digit? DigitOf
  rw [Option.filter_eq_some_iff, decide_eq_true_eq, and_comm]
  constructor
  · rintro ⟨bound, found⟩
    exact ⟨bound, named value (Nat.lt_of_lt_of_le bound small) char found⟩
  · rintro ⟨bound, same⟩
    exact ⟨bound, shown value (Nat.lt_of_lt_of_le bound small) char same⟩

theorem foldlM_digit?_eq_some_iff (small : base ≤ 16) {start : Nat} :
    chars.foldlM (fun number char => (digit? base char).map (number * base + ·)) start =
        some number ↔
      ∃ values, List.Forall₂ (DigitOf base) chars values ∧
        number = values.foldl (fun total value => total * base + value) start := by
  induction chars generalizing start with
  | nil => simp [List.forall₂_nil_left_iff, eq_comm]
  | cons char chars induction =>
      simp only [List.foldlM_cons, Option.bind_eq_bind, Option.bind_eq_some_iff,
        Option.map_eq_some_iff, digit?_eq_some_iff small, induction, List.forall₂_cons_left_iff]
      constructor
      · rintro ⟨total, ⟨value, digit, rfl⟩, values, others, rfl⟩
        exact ⟨_, ⟨value, values, digit, others, rfl⟩, rfl⟩
      · rintro ⟨_, ⟨value, values, digit, others, rfl⟩, rfl⟩
        exact ⟨_, ⟨value, digit, rfl⟩, values, others, rfl⟩

theorem ofDigits_reverse (base : Nat) (values : List Nat) :
    Nat.ofDigits base values.reverse =
      values.foldl (fun total value => total * base + value) 0 := by
  rw [Nat.ofDigits_eq_foldr, List.foldr_reverse]
  congr 1
  funext total value
  rw [Nat.cast_id, Nat.add_comm, Nat.mul_comm]

theorem isNumeral_iff (small : base ≤ 16) :
    IsNumeral base chars number ↔ chars ≠ [] ∧ digits? base chars = some number := by
  unfold IsNumeral digits?
  simp only [foldlM_digit?_eq_some_iff small, ofDigits_reverse]

theorem IsNumeral.unique (small : base ≤ 16) {other : Nat}
    (numeral : IsNumeral base chars number) (again : IsNumeral base chars other) :
    number = other := by
  obtain ⟨-, found⟩ := (isNumeral_iff small).mp numeral
  obtain ⟨-, same⟩ := (isNumeral_iff small).mp again
  exact Option.some.inj (found.symm.trans same)

theorem not_isNumeral_plus (small : base ≤ 16) : ¬ IsNumeral base ('+' :: chars) number := by
  rintro ⟨-, values, digits, -⟩
  cases digits with
  | cons digit others =>
      have found := (digit?_eq_some_iff small).mpr digit
      cases found

theorem numeral?_eq_some_iff (small : base ≤ 16) :
    numeral? base chars = some number ↔
      number < 2 ^ 64 ∧ (IsNumeral base chars number ∨
        ∃ digits, chars = '+' :: digits ∧ IsNumeral base digits number) := by
  have bounded {digits : List Char} (nonempty : digits ≠ []) :
      (digits? base digits).filter (· < UInt64.size) = some number ↔
        number < 2 ^ 64 ∧ IsNumeral base digits number := by
    rw [Option.filter_eq_some_iff, decide_eq_true_eq, isNumeral_iff small]
    exact ⟨fun found => ⟨found.2, nonempty, found.1⟩, fun found => ⟨found.2.2, found.1⟩⟩
  cases chars with
  | nil => simp [numeral?, IsNumeral]
  | cons char rest =>
      rw [numeral?_cons]
      by_cases plus : char = '+'
      · subst plus
        have signed : (∃ digits, '+' :: rest = '+' :: digits ∧ IsNumeral base digits number) ↔
            IsNumeral base rest number := by simp
        rw [if_pos rfl, signed, or_iff_right (not_isNumeral_plus small)]
        by_cases empty : rest = []
        · simp [empty, IsNumeral]
        · rw [if_neg (by simpa using empty), bounded empty]
      · have unsigned :
            ¬ ∃ digits, char :: rest = '+' :: digits ∧ IsNumeral base digits number := by
          rintro ⟨digits, shape, -⟩
          exact plus (List.cons.inj shape).1
        rw [if_neg plus, bounded (List.cons_ne_nil _ _), or_iff_left unsigned]

theorem isDigit_of_digitOf {value : Nat} (digit : DigitOf 10 char value) :
    char.isDigit = true := by
  have table : ∀ value < 10, value.digitChar.isDigit = true ∧
      value.digitChar.toUpper.isDigit = true := by decide
  obtain ⟨bound, rfl | rfl⟩ := digit
  · exact (table value bound).1
  · exact (table value bound).2

end Text

namespace Assembly

variable {word : List Char} {number : Nat}

/-- The number that a word stands for. A plus sign may follow the mark of a hexadecimal one. -/
inductive Denotes : List Char → Nat → Prop where
  | decimal {digits : List Char} {number : Nat} (numeral : Text.IsNumeral 10 digits number) :
      Denotes digits number
  | hexadecimal {mark : Char} {digits : List Char} {number : Nat}
      (marked : mark = 'x' ∨ mark = 'X') (numeral : Text.IsNumeral 16 digits number) :
      Denotes ('0' :: mark :: digits) number
  | signed {mark : Char} {digits : List Char} {number : Nat}
      (marked : mark = 'x' ∨ mark = 'X') (numeral : Text.IsNumeral 16 digits number) :
      Denotes ('0' :: mark :: '+' :: digits) number

def startsWithDigit (word : List Char) : Bool :=
  word.head?.any Char.isDigit

theorem Denotes.startsWithDigit_eq (denotes : Denotes word number) :
    startsWithDigit word = true := by
  cases denotes with
  | decimal numeral =>
      obtain ⟨nonempty, values, digits, -⟩ := numeral
      cases digits with
      | nil => exact absurd rfl nonempty
      | cons digit others => exact Text.isDigit_of_digitOf digit
  | hexadecimal marked numeral => rfl
  | signed marked numeral => rfl

namespace Token

/-- The mark tells the words apart: it is no decimal digit. -/
theorem denotes_cons_iff (first : Char) (rest : List Char) :
    Denotes (first :: rest) number ↔
      if HasHexMark first rest then
        Text.IsNumeral 16 rest.tail number ∨
          ∃ digits, rest.tail = '+' :: digits ∧ Text.IsNumeral 16 digits number
      else Text.IsNumeral 10 (first :: rest) number := by
  constructor
  · intro denotes
    cases denotes with
    | decimal numeral =>
        rw [if_neg]
        · exact numeral
        · rintro ⟨-, marked⟩
          obtain ⟨-, values, digits, -⟩ := numeral
          cases digits with
          | cons digit others =>
              cases others with
              | nil => simp at marked
              | cons second others =>
                  have plain := Text.isDigit_of_digitOf second
                  rcases marked with marked | marked
                  · cases marked
                    cases plain
                  · cases marked
                    cases plain
    | @hexadecimal mark digits _ marked numeral =>
        rw [if_pos ⟨rfl, by simpa using marked⟩]
        exact .inl numeral
    | @signed mark digits _ marked numeral =>
        rw [if_pos ⟨rfl, by simpa using marked⟩]
        exact .inr ⟨digits, rfl, numeral⟩
  · intro numeral
    split at numeral
    · rename_i marked
      obtain ⟨rfl, marked⟩ := marked
      cases rest with
      | nil => simp at marked
      | cons mark digits =>
          replace marked : mark = 'x' ∨ mark = 'X' := by simpa using marked
          rcases numeral with numeral | ⟨digits, rfl, numeral⟩
          · exact .hexadecimal marked numeral
          · exact .signed marked numeral
    · exact .decimal numeral

theorem ofNumeral_eq_number_iff {base : Nat} {digits : List Char} :
    ofNumeral word base digits = .ok (.number number) ↔
      Text.numeral? base digits = some number := by
  unfold ofNumeral
  cases Text.numeral? base digits with
  | none => simp
  | some value => simp

theorem ofNumeral_cases (word : List Char) (base : Nat) (digits : List Char) :
    (∃ number, ofNumeral word base digits = .ok (.number number)) ∨
      ofNumeral word base digits = .error (.invalidNumber (String.ofList word)) := by
  unfold ofNumeral
  cases Text.numeral? base digits with
  | none => exact .inr rfl
  | some value => exact .inl ⟨value, rfl⟩

theorem ofWord_of_not_startsWithDigit (plain : startsWithDigit word = false) :
    ofWord word = .ok (.name (String.ofList (Text.upper word))) := by
  cases word with
  | nil => rfl
  | cons first rest =>
      replace plain : first.isDigit = false := plain
      have unmarked : ¬ HasHexMark first rest := by
        rintro ⟨rfl, -⟩
        cases plain
      rw [ofWord_cons, if_neg unmarked, if_neg (by simp [plain])]

theorem ofWord_of_startsWithDigit (starts : startsWithDigit word = true) :
    (∃ number, ofWord word = .ok (.number number)) ∨
      ofWord word = .error (.invalidNumber (String.ofList word)) := by
  cases word with
  | nil => cases starts
  | cons first rest =>
      replace starts : first.isDigit = true := starts
      rw [ofWord_cons, if_pos starts]
      split
      · exact ofNumeral_cases _ _ _
      · exact ofNumeral_cases _ _ _

theorem ofWord_eq_number_iff :
    ofWord word = .ok (.number number) ↔ Denotes word number ∧ number < 2 ^ 64 := by
  cases starts : startsWithDigit word with
  | false =>
      rw [ofWord_of_not_startsWithDigit starts]
      constructor
      · nofun
      · rintro ⟨denotes, -⟩
        rw [denotes.startsWithDigit_eq] at starts
        cases starts
  | true =>
      cases word with
      | nil => cases starts
      | cons first rest =>
          replace starts : first.isDigit = true := starts
          have unsigned : ¬ ∃ digits, first :: rest = '+' :: digits ∧
              Text.IsNumeral 10 digits number := by
            rintro ⟨digits, ⟨⟩, -⟩
            cases starts
          rw [ofWord_cons, denotes_cons_iff, if_pos starts]
          by_cases marked : HasHexMark first rest
          · rw [if_pos marked, if_pos marked, ofNumeral_eq_number_iff,
              Text.numeral?_eq_some_iff (Nat.le_refl 16), and_comm]
          · rw [if_neg marked, if_neg marked, ofNumeral_eq_number_iff,
              Text.numeral?_eq_some_iff (by decide), or_iff_left unsigned, and_comm]

end Token

/-- The word starts as a number and is none, or one of more than 64 bits. -/
structure Malformed (word : List Char) : Prop where
  starts : startsWithDigit word = true
  large : ∀ number, Denotes word number → 2 ^ 64 ≤ number

theorem Token.ofWord_eq_error_iff {cause : Cause} :
    Token.ofWord word = .error cause ↔
      Malformed word ∧ cause = .invalidNumber (String.ofList word) := by
  constructor
  · intro failed
    cases starts : startsWithDigit word with
    | false =>
        rw [ofWord_of_not_startsWithDigit starts] at failed
        cases failed
    | true =>
        refine ⟨⟨starts, fun number denotes => ?_⟩, ?_⟩
        · by_contra small
          rw [ofWord_eq_number_iff.mpr ⟨denotes, Nat.lt_of_not_le small⟩] at failed
          cases failed
        · rcases ofWord_of_startsWithDigit starts with ⟨number, found⟩ | invalid
          · rw [found] at failed
            cases failed
          · rw [invalid] at failed
            cases failed
            rfl
  · rintro ⟨malformed, rfl⟩
    rcases ofWord_of_startsWithDigit malformed.starts with ⟨number, found⟩ | invalid
    · obtain ⟨denotes, small⟩ := ofWord_eq_number_iff.mp found
      exact absurd (malformed.large number denotes) (Nat.not_le_of_lt small)
    · exact invalid

/-- A word that denotes a number denotes no other. -/
theorem Denotes.unique {other : Nat} (denotes : Denotes word number)
    (again : Denotes word other) : number = other := by
  cases word with
  | nil => cases denotes.startsWithDigit_eq
  | cons first rest =>
      rw [Token.denotes_cons_iff] at denotes again
      by_cases marked : Token.HasHexMark first rest
      · rw [if_pos marked] at denotes again
        rcases denotes with plain | ⟨digits, shape, signed⟩
        · rcases again with same | ⟨digits, shape, -⟩
          · exact plain.unique (Nat.le_refl 16) same
          · rw [shape] at plain
            exact absurd plain (Text.not_isNumeral_plus (Nat.le_refl 16))
        · rw [shape] at again
          rcases again with plain | ⟨_, ⟨⟩, same⟩
          · exact absurd plain (Text.not_isNumeral_plus (Nat.le_refl 16))
          · exact signed.unique (Nat.le_refl 16) same
      · rw [if_neg marked] at denotes again
        exact denotes.unique (by decide) again

end Assembly

end ByteMachine
