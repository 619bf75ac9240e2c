import ByteMachine.Proofs.Assembly.Lines
import ByteMachine.Proofs.Assembly.Parse
import ByteMachine.Proofs.Listing

namespace ByteMachine

/-! A listing assembles to the bytes that it lists. -/

namespace Assembly

theorem assembleLine_text {statement : Statement} (printable : statement.Printable) :
    assembleLine statement.text.toList = .ok statement.encode := by
  rw [assembleLine, Statement.ofLine, statement.tokens_text.1]
  change (Statement.ofTokens statement.tokens >>= fun found =>
    pure ((found.map Statement.encode).getD [])) = _
  rw [Statement.ofTokens_tokens printable]
  rfl

theorem assembleLines_text {listing : Listing}
    (printable : ∀ statement ∈ listing, statement.Printable) (number : Nat) :
    assembleLines number (listing.map (·.text.toList)) =
      .ok (listing.flatMap Statement.encode) := by
  induction listing generalizing number with
  | nil => rfl
  | cons statement listing induction =>
      have first := assembleLine_text (printable statement (by simp))
      have later := induction (fun other member => printable other (by simp [member]))
        (number + 1)
      rw [List.map_cons, assembleLines, first, later]
      rfl

namespace Statement

variable (statement : Statement)

theorem toList_text_ne_nil : statement.text.toList ≠ [] := by
  intro empty
  have lexed := statement.tokens_text.1
  rw [empty] at lexed
  cases statement <;> cases lexed

theorem pieces_text : pieces statement.text = [statement.text.toList] := by
  apply Text.split_of_forall
  intro char member
  simpa using (statement.tokens_text.2 char member).1

/-- The text of a statement is one line. -/
theorem lines_text : lines statement.text = [statement.text.toList] := by
  have nonempty := statement.toList_text_ne_nil
  rw [lines, statement.pieces_text]
  simp [linesOfPieces, nonempty]

end Statement

end Assembly

namespace Listing

theorem text_cons (statement : Assembly.Statement) (listing : Listing) :
    text (statement :: listing) = statement.text ++ "\n" ++ text listing := by
  simp [text, String.join_cons]

theorem lines_text (listing : Listing) :
    Assembly.lines listing.text = listing.map (·.text.toList) := by
  induction listing with
  | nil => rfl
  | cons statement listing induction =>
      have parted : Assembly.pieces (statement.text ++ "\n" ++ text listing) =
          statement.text.toList :: Assembly.pieces (text listing) := by
        rw [Assembly.pieces_join, statement.pieces_text, List.singleton_append]
      have plain : '\r' ∉ statement.text.toList :=
        fun member => (statement.tokens_text.2 _ member).2 rfl
      rw [text_cons, Assembly.lines, parted,
        Assembly.linesOfPieces_cons plain (Assembly.pieces_ne_nil _)]
      exact congrArg (statement.text.toList :: ·) induction

theorem printable_addByte {byte : Byte} {listing : Listing}
    (printable : ∀ statement ∈ listing, statement.Printable) :
    ∀ statement ∈ addByte byte listing, statement.Printable := by
  fun_cases addByte byte listing with
  | case1 bytes rest =>
      intro statement member
      rcases List.mem_cons.mp member with rfl | member
      · exact List.cons_ne_nil byte bytes
      · exact printable statement (List.mem_cons_of_mem _ member)
  | case2 =>
      intro statement member
      rcases List.mem_cons.mp member with rfl | member
      · exact List.cons_ne_nil byte []
      · exact printable statement member

theorem encode_addByte (byte : Byte) (listing : Listing) :
    (addByte byte listing).flatMap Assembly.Statement.encode =
      byte :: listing.flatMap Assembly.Statement.encode := by
  fun_cases addByte byte listing with
  | case1 bytes rest => rfl
  | case2 => rfl

theorem printable_ofBytes (bytes : List Byte) :
    ∀ statement ∈ ofBytes bytes, statement.Printable := by
  fun_induction ofBytes bytes with
  | case1 => nofun
  | case2 byte rest written left read induction =>
      intro statement member
      rcases List.mem_cons.mp member with rfl | member
      · exact (Decode.instruction_eq_ok read).1
      · exact induction statement member
  | case3 byte rest error left read induction => exact printable_addByte induction

/-- No byte is lost, whether an instruction starts at it or not. -/
theorem encode_ofBytes (bytes : List Byte) :
    (ofBytes bytes).flatMap Assembly.Statement.encode = bytes := by
  fun_induction ofBytes bytes with
  | case1 => rfl
  | case2 byte rest written left read induction =>
      rw [List.flatMap_cons, induction]
      exact (Decode.instruction_eq_ok read).2.symm
  | case3 byte rest error left read induction => rw [encode_addByte, induction]

end Listing

theorem Tape.assemble_listing (tape : Tape) :
    Assembly.assemble tape.listing = .ok tape.bytes := by
  rw [Tape.listing_eq, Assembly.assemble, Listing.lines_text,
    Assembly.assembleLines_text (Listing.printable_ofBytes tape.bytes),
    Listing.encode_ofBytes]

end ByteMachine
