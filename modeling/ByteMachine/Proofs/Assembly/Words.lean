import ByteMachine.Assembly.Assemble
import ByteMachine.Proofs.Answer

namespace ByteMachine

/-! What a line says depends on the words in front of its comment, and on them only up to the
case of ASCII letters. -/

namespace Text

section Fields

variable {α β : Type} {isSeparator : α → Bool} {gap : List α}

theorem fields_append_cons {separator : α} (parts : isSeparator separator = true)
    (left right : List α) :
    fields isSeparator (left ++ separator :: right) =
      fields isSeparator left ++ fields isSeparator right := by
  simp only [fields, split_append_cons parts, List.filter_append]

theorem fields_gap_append (parts : ∀ item ∈ gap, isSeparator item = true) (right : List α) :
    fields isSeparator (gap ++ right) = fields isSeparator right := by
  induction gap with
  | nil => rfl
  | cons item gap induction =>
      obtain ⟨first, others⟩ := List.forall_mem_cons.mp parts
      exact (fields_append_cons first [] _).trans (induction others)

theorem fields_append_gap (nonempty : gap ≠ []) (parts : ∀ item ∈ gap, isSeparator item = true)
    (left right : List α) :
    fields isSeparator (left ++ (gap ++ right)) =
      fields isSeparator left ++ fields isSeparator right := by
  obtain ⟨item, gap, rfl⟩ := List.exists_cons_of_ne_nil nonempty
  obtain ⟨first, others⟩ := List.forall_mem_cons.mp parts
  rw [List.cons_append, fields_append_cons first, fields_gap_append others]

theorem plain_of_mem_split {items piece : List α} {item : α}
    (member : piece ∈ split isSeparator items) (inside : item ∈ piece) :
    isSeparator item = false ∧ item ∈ items := by
  induction items generalizing piece with
  | nil =>
      obtain rfl := List.mem_singleton.mp member
      cases inside
  | cons first items induction =>
      have later {piece : List α} (member : piece ∈ split isSeparator items)
          (inside : item ∈ piece) : isSeparator item = false ∧ item ∈ first :: items := by
        obtain ⟨plain, found⟩ := induction member inside
        exact ⟨plain, List.mem_cons_of_mem _ found⟩
      rw [split_cons] at member
      unfold addItem at member
      split at member
      · rcases List.mem_cons.mp member with rfl | member
        · cases inside
        · exact later member inside
      · rename_i plain
        obtain ⟨head, pieces, shape⟩ :=
          List.exists_cons_of_ne_nil (split_ne_nil isSeparator items)
        rw [shape] at member later
        rcases List.mem_cons.mp member with rfl | member
        · rcases List.mem_cons.mp inside with rfl | inside
          · exact ⟨Bool.eq_false_iff.mpr plain, List.mem_cons_self⟩
          · exact later List.mem_cons_self inside
        · exact later (List.mem_cons_of_mem _ member) inside

theorem split_map {other : β → Bool} {change : α → β}
    (kept : ∀ item, other (change item) = isSeparator item) (items : List α) :
    split other (items.map change) = (split isSeparator items).map (List.map change) := by
  induction items with
  | nil => rfl
  | cons item items induction =>
      rw [List.map_cons, split_cons, split_cons, induction]
      obtain ⟨piece, pieces, shape⟩ :=
        List.exists_cons_of_ne_nil (split_ne_nil isSeparator items)
      cases parts : isSeparator item with
      | true => simp [addItem, kept, parts]
      | false => simp [addItem, kept, parts, shape]

theorem fields_map {other : β → Bool} {change : α → β}
    (kept : ∀ item, other (change item) = isSeparator item) (items : List α) :
    fields other (items.map change) = (fields isSeparator items).map (List.map change) := by
  rw [fields, split_map kept, List.filter_map, fields]
  congr 2
  funext piece
  simp

end Fields

theorem toUpper_of_not_ascii {char : Char} (large : 128 ≤ char.toNat) : char.toUpper = char := by
  refine dif_neg fun lower => ?_
  have small : char.toNat ≤ 122 := lower.2
  omega

/-- Only ASCII characters have to be tried, because no others change. -/
theorem toUpper_invariant {γ : Type} (shown : Char → γ)
    (table : ∀ code < 128, shown (Char.ofNat code).toUpper = shown (Char.ofNat code))
    (char : Char) : shown char.toUpper = shown char := by
  by_cases ascii : char.toNat < 128
  · have entry := table char.toNat ascii
    rwa [Char.ofNat_toNat] at entry
  · rw [toUpper_of_not_ascii (Nat.le_of_not_lt ascii)]

theorem toUpper_eq_iff {sign : Char} (plain : sign.isAlpha = false) (char : Char) :
    char.toUpper = sign ↔ char = sign := by
  -- Letters become letters, and all other characters stay as they are.
  have kept := toUpper_invariant (fun char => (some char).filter (!·.isAlpha))
    (by decide +kernel) char
  have shown (other : Char) :
      other = sign ↔ (some other).filter (!·.isAlpha) = some sign := by
    rw [Option.filter_eq_some_iff, Option.some.injEq]
    constructor
    · rintro rfl
      exact ⟨rfl, by simp [plain]⟩
    · exact And.left
  rw [shown, kept, ← shown]

theorem toUpper_beq {sign : Char} (plain : sign.isAlpha = false) (char : Char) :
    (char.toUpper == sign) = (char == sign) := by
  rw [Bool.eq_iff_iff, beq_iff_eq, beq_iff_eq, toUpper_eq_iff plain]

theorem isDigit_toUpper (char : Char) : char.toUpper.isDigit = char.isDigit :=
  toUpper_invariant Char.isDigit (by decide +kernel) char

theorem upperChar_toUpper (char : Char) : upperChar char.toUpper = upperChar char :=
  toUpper_invariant upperChar (by decide +kernel) char

theorem upper_toUpper (chars : List Char) : upper (chars.map Char.toUpper) = upper chars := by
  simp only [upper, List.flatMap_map, upperChar_toUpper]

theorem digit?_toUpper (base : Nat) (char : Char) :
    digit? base char.toUpper = digit? base char := by
  unfold digit?
  rw [toUpper_invariant digitValue? (by decide +kernel)]

theorem digits?_toUpper (base : Nat) (chars : List Char) :
    digits? base (chars.map Char.toUpper) = digits? base chars := by
  simp only [digits?, List.foldlM_map, digit?_toUpper]

theorem numeral?_cons (base : Nat) (char : Char) (rest : List Char) :
    numeral? base (char :: rest) =
      if char = '+' then
        if rest.isEmpty then none else (digits? base rest).filter (· < UInt64.size)
      else (digits? base (char :: rest)).filter (· < UInt64.size) := by
  unfold numeral?
  split
  · rename_i digits shape
    obtain ⟨rfl, rfl⟩ := List.cons.inj shape
    rfl
  · rename_i other
    have plain : char ≠ '+' := fun plus => other rest (by rw [plus])
    rw [if_neg plain]
    rfl

theorem numeral?_toUpper (base : Nat) (chars : List Char) :
    numeral? base (chars.map Char.toUpper) = numeral? base chars := by
  cases chars with
  | nil => rfl
  | cons char rest =>
      have whole := digits?_toUpper base (char :: rest)
      rw [List.map_cons] at whole ⊢
      rw [numeral?_cons, numeral?_cons, whole, digits?_toUpper, List.isEmpty_map]
      simp only [toUpper_eq_iff (show '+'.isAlpha = false by decide)]

end Text

namespace Assembly

theorem isSeparator_toUpper (char : Char) : isSeparator char.toUpper = isSeparator char :=
  Text.toUpper_invariant isSeparator (by decide +kernel) char

namespace Token

theorem toOption_ofNumeral (word : List Char) (base : Nat) (digits : List Char) :
    (ofNumeral word base digits).toOption = (Text.numeral? base digits).map number := by
  unfold ofNumeral
  cases Text.numeral? base digits with
  | none => rfl
  | some value => rfl

/-- A word of these characters is hexadecimal. -/
def HasHexMark (first : Char) (rest : List Char) : Prop :=
  first = '0' ∧ (rest.head? = some 'x' ∨ rest.head? = some 'X')

instance (first : Char) (rest : List Char) : Decidable (HasHexMark first rest) :=
  inferInstanceAs (Decidable (_ ∧ _))

theorem hasHexMark_toUpper (first : Char) (rest : List Char) :
    HasHexMark first.toUpper (rest.map Char.toUpper) ↔ HasHexMark first rest := by
  have mark := Text.toUpper_invariant (fun char => decide (char = 'x' ∨ char = 'X'))
    (by decide +kernel)
  unfold HasHexMark
  rw [Text.toUpper_eq_iff (by decide)]
  cases rest with
  | nil => rfl
  | cons char rest => simpa using fun _ => decide_eq_decide.mp (mark char)

theorem ofWord_cons (first : Char) (rest : List Char) :
    ofWord (first :: rest) =
      if HasHexMark first rest then ofNumeral (first :: rest) 16 rest.tail
      else if first.isDigit then ofNumeral (first :: rest) 10 (first :: rest)
      else .ok (name (String.ofList (Text.upper (first :: rest)))) := by
  unfold ofWord
  split
  · rename_i digits shape
    cases shape
    rw [if_pos ⟨rfl, .inl rfl⟩]
    rfl
  · rename_i digits shape
    cases shape
    rw [if_pos ⟨rfl, .inr rfl⟩]
    rfl
  · rename_i head tail lower upper shape
    cases shape
    have plain : ¬ HasHexMark first rest := by
      rintro ⟨zero, marked | marked⟩
      · obtain ⟨digits, shape⟩ := List.head?_eq_some_iff.mp marked
        exact lower digits zero shape
      · obtain ⟨digits, shape⟩ := List.head?_eq_some_iff.mp marked
        exact upper digits zero shape
    rw [if_neg plain]
  · rename_i shape
    cases shape

theorem ofWord_toUpper (word : List Char) :
    (ofWord (word.map Char.toUpper)).toOption = (ofWord word).toOption := by
  cases word with
  | nil => rfl
  | cons first rest =>
      have whole := Text.numeral?_toUpper 10 (first :: rest)
      have named := Text.upper_toUpper (first :: rest)
      rw [List.map_cons] at whole named ⊢
      simp only [ofWord_cons, apply_ite Except.toOption, toOption_ofNumeral, hasHexMark_toUpper,
        Text.isDigit_toUpper, ← List.map_tail, Text.numeral?_toUpper, whole, named]

end Token

theorem code_toUpper (line : List Char) :
    code (line.map Char.toUpper) = (code line).map Char.toUpper := by
  have sign (char : Char) : (char.toUpper != ';') = (char != ';') :=
    congrArg not (Text.toUpper_beq (by decide) char)
  unfold code
  rw [List.takeWhile_map]
  simp only [Function.comp_def, sign]

theorem tokens_toUpper (line : List Char) :
    (tokens (line.map Char.toUpper)).toOption = (tokens line).toOption := by
  unfold tokens words
  rw [code_toUpper, Text.fields_map isSeparator_toUpper, answer_toOption_mapM,
    answer_toOption_mapM, List.mapM_map]
  simp only [Function.comp_def, Token.ofWord_toUpper]

def IsGap (gap : List Char) : Prop :=
  ∀ char ∈ gap, isSeparator char = true

/-- A comment with its sign, or none. -/
def IsComment (comment : List Char) : Prop :=
  ∀ first ∈ comment.head?, first = ';'

instance : DecidablePred IsGap := fun gap =>
  List.decidableBAll (isSeparator · = true) gap

instance : DecidablePred IsComment := fun comment =>
  Option.decidableForallMem comment.head?

section Words

variable {gap comment : List Char}

theorem code_append (left right : List Char) :
    code (left ++ right) = code left ++ if ';' ∈ left then [] else code right := by
  induction left with
  | nil => rfl
  | cons char left induction =>
      unfold code at induction ⊢
      by_cases sign : char = ';'
      · simp [sign]
      · simp [sign, Ne.symm sign, induction]

theorem IsComment.code_eq (starts : IsComment comment) : code comment = [] := by
  cases comment with
  | nil => rfl
  | cons first rest =>
      obtain rfl := starts first rfl
      rfl

theorem words_append_comment (starts : IsComment comment) (line : List Char) :
    words (line ++ comment) = words line := by
  unfold words
  rw [code_append, starts.code_eq, ite_self, List.append_nil]

theorem IsGap.code_append (separates : IsGap gap) (line : List Char) :
    code (gap ++ line) = gap ++ code line := by
  apply List.takeWhile_append_of_pos
  intro char member
  rw [bne_iff_ne]
  rintro rfl
  exact absurd (separates _ member) (by decide)

theorem words_gap_append (separates : IsGap gap) (line : List Char) :
    words (gap ++ line) = words line := by
  unfold words
  rw [separates.code_append, Text.fields_gap_append separates]

/-- The words on the two sides of a gap are told apart, whatever the gap is. -/
theorem words_append_gap (separates : IsGap gap) (nonempty : gap ≠ [])
    (left right : List Char) :
    words (left ++ (gap ++ right)) =
      words left ++ if ';' ∈ left then [] else words right := by
  unfold words
  rw [code_append]
  split
  · rw [List.append_nil, List.append_nil]
  · rw [separates.code_append, Text.fields_append_gap nonempty separates]

/-- Separators between the code and the comment separate nothing. -/
theorem words_append_gap_comment (separates : IsGap gap) (starts : IsComment comment)
    (line : List Char) : words (line ++ (gap ++ comment)) = words line := by
  by_cases empty : gap = []
  · rw [empty, List.nil_append, words_append_comment starts]
  · have none : words comment = [] := words_append_comment starts []
    rw [words_append_gap separates empty, none, ite_self, List.append_nil]

end Words

theorem toOption_assembleLine (line : List Char) :
    (assembleLine line).toOption =
      (tokens line).toOption.bind fun found =>
        (Statement.ofTokens found).toOption.map fun statement? =>
          (statement?.map Statement.encode).getD [] := by
  unfold assembleLine Statement.ofLine
  rw [bind_assoc, answer_toOption_bind]
  apply congrArg
  funext found
  cases Statement.ofTokens found with
  | error cause => rfl
  | ok statement? => rfl

end Assembly

end ByteMachine
