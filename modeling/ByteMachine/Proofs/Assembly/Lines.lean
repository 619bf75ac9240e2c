import ByteMachine.Proofs.Assembly.Words

namespace ByteMachine.Assembly

/-! What the lines of a text leave out of it says nothing: a carriage return at the end of a
line is a separator, and there is no statement behind the last newline of a text. -/

theorem dropReturn_of_not_mem {line : List Char} (absent : '\r' ∉ line) :
    dropReturn line = line := by
  apply if_neg
  intro last
  exact absent (List.mem_of_getLast? last)

theorem words_dropReturn (line : List Char) : words (dropReturn line) = words line := by
  unfold dropReturn
  split
  · rename_i last
    obtain ⟨front, rfl⟩ := List.getLast?_eq_some_iff.mp last
    have gap : IsGap ['\r'] := by decide
    have ended : IsComment [] := nofun
    rw [List.dropLast_concat]
    exact (words_append_gap_comment gap ended front).symm
  · rfl

theorem assembleLine_dropReturn (line : List Char) :
    assembleLine (dropReturn line) = assembleLine line := by
  rw [assembleLine, assembleLine, Statement.ofLine, Statement.ofLine, tokens, tokens,
    words_dropReturn]

theorem assembleLines_linesOfPieces (number : Nat) (pieces : List (List Char)) :
    assembleLines number (linesOfPieces pieces) = assembleLines number pieces := by
  fun_induction linesOfPieces pieces generalizing number with
  | case1 => rfl
  | case2 last empty =>
      obtain rfl := List.isEmpty_iff.mp empty
      rfl
  | case3 last nonempty => rfl
  | case4 piece next pieces induction =>
      rw [assembleLines, assembleLine_dropReturn, induction]
      rfl

theorem assemble_eq (text : String) : assemble text = assembleLines 1 (pieces text) :=
  assembleLines_linesOfPieces 1 (pieces text)

theorem pieces_ne_nil (text : String) : pieces text ≠ [] :=
  Text.split_ne_nil _ _

theorem pieces_join (first second : String) :
    pieces (first ++ "\n" ++ second) = pieces first ++ pieces second := by
  have joined : (first ++ "\n" ++ second).toList =
      first.toList ++ '\n' :: second.toList := by simp
  rw [pieces, joined, Text.split_append_cons (by rfl)]
  rfl

theorem linesOfPieces_cons {piece : List Char} {pieces : List (List Char)}
    (absent : '\r' ∉ piece) (more : pieces ≠ []) :
    linesOfPieces (piece :: pieces) = piece :: linesOfPieces pieces := by
  obtain ⟨next, rest, rfl⟩ := List.exists_cons_of_ne_nil more
  rw [linesOfPieces, dropReturn_of_not_mem absent]

end ByteMachine.Assembly
