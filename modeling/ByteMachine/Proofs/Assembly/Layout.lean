import ByteMachine.Proofs.Assembly.Canonical
import ByteMachine.Proofs.Assembly.Join
import ByteMachine.Proofs.Assembly.Words

namespace ByteMachine.Assembly

/-! The layout of an assembly text is free. The case of its letters, the separators between its
words, its comments and its blank lines can be edited without a change to the program. -/

/-- What follows `before` is at the start of a line. -/
def StartsLine (before : List Char) : Prop :=
  ∀ last ∈ before.getLast?, last = '\n'

/-- What precedes `after` is at the end of a line. -/
def EndsLine (after : List Char) : Prop :=
  ∀ first ∈ after.head?, first = '\n'

instance : DecidablePred StartsLine := fun before =>
  Option.decidableForallMem before.getLast?

instance : DecidablePred EndsLine := fun after =>
  Option.decidableForallMem after.head?

/-- Edits within a line. -/
inductive LineEdit : List Char → List Char → Prop where
  | respace {gap other : List Char} (left right : List Char)
      (separates : IsGap gap) (nonempty : gap ≠ [])
      (otherSeparates : IsGap other) (otherNonempty : other ≠ []) :
      LineEdit (left ++ (gap ++ right)) (left ++ (other ++ right))
  | indent {gap : List Char} (line : List Char) (separates : IsGap gap) :
      LineEdit line (gap ++ line)
  | trail {gap comment : List Char} (code : List Char) (separates : IsGap gap)
      (commented : IsComment comment) :
      LineEdit (code ++ comment) (code ++ (gap ++ comment))
  | recomment {comment other : List Char} (code : List Char)
      (commented : IsComment comment) (otherCommented : IsComment other) :
      LineEdit (code ++ comment) (code ++ other)

/-- Edits of a text. The case of characters outside ASCII is not a matter of layout. -/
inductive Edit : List Char → List Char → Prop where
  | recase {text other : List Char}
      (alike : text.map Char.toUpper = other.map Char.toUpper) : Edit text other
  | line {before line other after : List Char} (starts : StartsLine before)
      (ends : EndsLine after) (single : '\n' ∉ line) (otherSingle : '\n' ∉ other)
      (edit : LineEdit line other) :
      Edit (before ++ (line ++ after)) (before ++ (other ++ after))
  | insertAbove {before blank after : List Char} (starts : StartsLine before)
      (single : '\n' ∉ blank) (empty : isBlank blank = true) :
      Edit (before ++ after) (before ++ (blank ++ '\n' :: after))
  | insertBelow {before blank after : List Char} (ends : EndsLine after)
      (single : '\n' ∉ blank) (empty : isBlank blank = true) :
      Edit (before ++ after) (before ++ '\n' :: (blank ++ after))

section Cut

variable {before line after : List Char}

theorem StartsLine.exists_above (starts : StartsLine before) :
    ∃ above, ∀ rest, Text.split (· == '\n') (before ++ rest) =
      above ++ Text.split (· == '\n') rest := by
  rcases List.eq_nil_or_concat before with rfl | ⟨start, last, rfl⟩
  · exact ⟨[], fun rest => rfl⟩
  · obtain rfl := starts last (by simp)
    refine ⟨Text.split (· == '\n') start, fun rest => ?_⟩
    rw [List.concat_append, Text.split_append_cons (by rfl)]

theorem EndsLine.exists_below (ends : EndsLine after) :
    ∃ below, ∀ start, Text.split (· == '\n') (start ++ after) =
      Text.split (· == '\n') start ++ below := by
  cases after with
  | nil => exact ⟨[], fun start => by simp⟩
  | cons first rest =>
      obtain rfl := ends first rfl
      exact ⟨Text.split (· == '\n') rest, fun start => Text.split_append_cons (by rfl) start rest⟩

theorem split_single (single : '\n' ∉ line) : Text.split (· == '\n') line = [line] := by
  apply Text.split_of_forall
  intro char member
  simpa using ne_of_mem_of_not_mem member single

end Cut

/-- The bytes of the lines, if there is no error in them. -/
def bytes? (lines : List (List Char)) : Option (List Byte) :=
  (assembleLines 1 lines).toOption

theorem bytes?_append (above below : List (List Char)) :
    bytes? (above ++ below) =
      (bytes? above).bind fun first => (bytes? below).map (first ++ ·) := by
  unfold bytes?
  rw [assembleLines_append, assembleLines_add, answer_toOption_bind]
  apply congrArg
  funext first
  rw [answer_toOption_bind, answer_toOption_mapError, Option.map_eq_bind]
  rfl

theorem bytes?_cons (line : List Char) (lines : List (List Char)) :
    bytes? (line :: lines) =
      (assembleLine line).toOption.bind fun first => (bytes? lines).map (first ++ ·) := by
  have alone : bytes? [line] = (assembleLine line).toOption := by
    unfold bytes? assembleLines
    cases assembleLine line with
    | error cause => rfl
    | ok first => exact congrArg some (List.append_nil first)
  rw [← alone, ← bytes?_append, List.singleton_append]

theorem bytes?_replace {lines others : List (List Char)} (alike : bytes? lines = bytes? others)
    (above below : List (List Char)) :
    bytes? (above ++ (lines ++ below)) = bytes? (above ++ (others ++ below)) := by
  simp only [bytes?_append, alike]

theorem bytes?_map_toUpper (lines : List (List Char)) :
    bytes? (lines.map (List.map Char.toUpper)) = bytes? lines := by
  induction lines with
  | nil => rfl
  | cons line lines induction =>
      rw [List.map_cons, bytes?_cons, bytes?_cons, induction, toOption_assembleLine,
        toOption_assembleLine, tokens_toUpper]

theorem bytes?_of_words {line other : List Char} (alike : words line = words other) :
    bytes? [line] = bytes? [other] := by
  rw [bytes?_cons, bytes?_cons, toOption_assembleLine, toOption_assembleLine, tokens, tokens,
    alike]

theorem bytes?_insert {blank : List Char} (empty : isBlank blank = true)
    (above below : List (List Char)) :
    bytes? (above ++ below) = bytes? (above ++ ([blank] ++ below)) := by
  have alike : words [] = words blank := (words_eq_nil_iff.mpr empty).symm
  have none : bytes? [] = bytes? [blank] := by
    rw [← bytes?_of_words alike]
    rfl
  exact bytes?_replace none above below

theorem LineEdit.words_eq {line other : List Char} (edit : LineEdit line other) :
    words line = words other := by
  cases edit with
  | respace left right separates nonempty otherSeparates otherNonempty =>
      rw [words_append_gap separates nonempty, words_append_gap otherSeparates otherNonempty]
  | indent line separates => rw [words_gap_append separates]
  | trail code separates commented =>
      rw [words_append_comment commented, words_append_gap_comment separates commented]
  | recomment code commented otherCommented =>
      rw [words_append_comment commented, words_append_comment otherCommented]

theorem split_toUpper (text : List Char) :
    Text.split (· == '\n') (text.map Char.toUpper) =
      (Text.split (· == '\n') text).map (List.map Char.toUpper) :=
  Text.split_map (fun char => Text.toUpper_beq (by decide) char) text

theorem Edit.bytes?_eq {text other : List Char} (edit : Edit text other) :
    bytes? (Text.split (· == '\n') text) = bytes? (Text.split (· == '\n') other) := by
  cases edit with
  | recase alike =>
      -- In upper case the two texts are the same.
      rw [← bytes?_map_toUpper, ← split_toUpper, alike, split_toUpper, bytes?_map_toUpper]
  | line starts ends single otherSingle edit =>
      obtain ⟨above, cutAbove⟩ := starts.exists_above
      obtain ⟨below, cutBelow⟩ := ends.exists_below
      rw [cutAbove, cutAbove, cutBelow, cutBelow, split_single single, split_single otherSingle]
      exact bytes?_replace (bytes?_of_words edit.words_eq) above below
  | insertAbove starts single empty =>
      obtain ⟨above, cutAbove⟩ := starts.exists_above
      rw [cutAbove, cutAbove, Text.split_append_cons (by rfl), split_single single]
      exact bytes?_insert empty above _
  | insertBelow ends single empty =>
      obtain ⟨below, cutBelow⟩ := ends.exists_below
      rw [Text.split_append_cons (by rfl), cutBelow, cutBelow, split_single single]
      exact bytes?_insert empty _ below

theorem bytes?_of_edits {text other : List Char}
    (edited : Relation.ReflTransGen Edit text other) :
    bytes? (Text.split (· == '\n') text) = bytes? (Text.split (· == '\n') other) := by
  induction edited with
  | refl => rfl
  | tail earlier edit induction => exact induction.trans edit.bytes?_eq

/-- However often its layout is edited, a text that can be assembled gives the same program. -/
theorem assemble_of_edits {text other : String} {program : List Byte}
    (assembled : assemble text = .ok program)
    (edited : Relation.ReflTransGen Edit text.toList other.toList) :
    assemble other = .ok program := by
  rw [assemble_eq, ← answer_toOption_eq_some] at assembled ⊢
  exact (bytes?_of_edits edited).symm.trans assembled

/-- Other letters, another gap, a comment with a second sign in it, and a note on a line of
its own. -/
theorem assemble_of_edits_note :
    let text := "push 0x0a ; ten\npop"
    let other := "Push,\t0X0A ; Ten\n , ; note\npop; drop; it"
    assemble text = .ok [0xfd, 0x0a, 0xfc] ∧
      Relation.ReflTransGen Edit text.toList other.toList ∧
      assemble other = .ok [0xfd, 0x0a, 0xfc] := by
  intro text other
  have assembled : assemble text = .ok [0xfd, 0x0a, 0xfc] := by decide +kernel
  have recased : Edit text.toList "Push 0X0A ; Ten\npop".toList :=
    .recase (by decide +kernel)
  have respaced : Edit "Push 0X0A ; Ten\npop".toList "Push,\t0X0A ; Ten\npop".toList := by
    have gap : LineEdit ("Push".toList ++ (" ".toList ++ "0X0A ; Ten".toList))
        ("Push".toList ++ (",\t".toList ++ "0X0A ; Ten".toList)) :=
      .respace _ _ (by decide +kernel) (by decide) (by decide +kernel) (by decide)
    have line : Edit ([] ++ (_ ++ "\npop".toList)) ([] ++ (_ ++ "\npop".toList)) :=
      .line (by decide) (by decide) (by decide +kernel) (by decide +kernel) gap
    convert line using 1 <;> decide +kernel
  have commented : Edit "Push,\t0X0A ; Ten\npop".toList
      "Push,\t0X0A ; Ten\npop; drop; it".toList := by
    have comment : LineEdit ("pop".toList ++ []) ("pop".toList ++ "; drop; it".toList) :=
      .recomment _ (by decide) (by decide +kernel)
    have line : Edit ("Push,\t0X0A ; Ten\n".toList ++ (_ ++ []))
        ("Push,\t0X0A ; Ten\n".toList ++ (_ ++ [])) :=
      .line (by decide +kernel) (by decide) (by decide +kernel) (by decide +kernel) comment
    convert line using 1 <;> decide +kernel
  have noted : Edit "Push,\t0X0A ; Ten\npop; drop; it".toList other.toList := by
    have line : Edit ("Push,\t0X0A ; Ten\n".toList ++ "pop; drop; it".toList)
        ("Push,\t0X0A ; Ten\n".toList ++
          (" , ; note".toList ++ '\n' :: "pop; drop; it".toList)) :=
      .insertAbove (by decide +kernel) (by decide +kernel) (by decide +kernel)
    convert line using 1 <;> decide +kernel
  have edited : Relation.ReflTransGen Edit text.toList other.toList :=
    .tail (.tail (.tail (.single recased) respaced) commented) noted
  exact ⟨assembled, edited, assemble_of_edits assembled edited⟩

end ByteMachine.Assembly
