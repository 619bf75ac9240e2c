import ByteMachine.Listing
import ByteMachine.Proofs.Encoding.Misread

namespace ByteMachine

/-! A listing by recursion on the bytes that it lists, which is the one that a draft comes
to. -/

namespace Listing

/-- Puts a byte at which no instruction starts in front of a listing. Such bytes gather in
one line. -/
def addByte (byte : Byte) : Listing → Listing
  | .data bytes :: rest => .data (byte :: bytes) :: rest
  | listing => .data [byte] :: listing

/-- Reads instruction after instruction; where none can be read, reading goes on at the next
byte. -/
def ofBytes : List Byte → Listing
  | [] => []
  | byte :: rest =>
      match _read : Decode.instruction (byte :: rest) with
      | .ok instruction left => .instruction instruction :: ofBytes left
      | .error _ _ => addByte byte (ofBytes rest)
  termination_by bytes => bytes.length
  decreasing_by
    · exact Decode.length_lt_of_instruction _read
    · simp

theorem ofBytes_of_read {bytes left : List Byte} {written : Instruction}
    (read : Decode.instruction bytes = .ok written left) :
    ofBytes bytes = .instruction written :: ofBytes left := by
  cases bytes with
  | nil => cases read
  | cons byte rest =>
      rw [ofBytes]
      split
      · rename_i other behind found
        rw [read] at found
        cases found
        rfl
      · rename_i error behind found
        rw [read] at found
        cases found

theorem ofBytes_of_error {byte : Byte} {rest left : List Byte} {error : DecodeError}
    (failed : Decode.instruction (byte :: rest) = .error error left) :
    ofBytes (byte :: rest) = addByte byte (ofBytes rest) := by
  rw [ofBytes]
  split
  · rename_i other behind found
    rw [failed] at found
    cases found
  · rfl

theorem foldr_addByte_cons (byte : Byte) (bytes : List Byte) :
    (byte :: bytes).foldr addByte [] = [.data (byte :: bytes)] := by
  induction bytes generalizing byte with
  | nil => rfl
  | cons next bytes induction => rw [List.foldr_cons, induction, addByte]

/-- An instruction ends the line of data in front of it. -/
theorem foldr_addByte_instruction (bytes : List Byte) (written : Instruction)
    (listing : Listing) :
    bytes.foldr addByte (.instruction written :: listing) =
      bytes.foldr addByte [] ++ .instruction written :: listing := by
  induction bytes with
  | nil => rfl
  | cons byte bytes induction =>
      rw [List.foldr_cons, induction, foldr_addByte_cons]
      cases bytes with
      | nil => rfl
      | cons next bytes => rw [foldr_addByte_cons]; rfl

end Listing

namespace Draft

theorem lines_flush (draft : Draft) :
    draft.flush.lines = draft.lines ++ draft.waiting.foldr Listing.addByte [] := by
  obtain ⟨tape, waiting, lines⟩ := draft
  cases waiting with
  | nil => exact (List.append_nil lines).symm
  | cons byte bytes => rw [Listing.foldr_addByte_cons]; rfl

/-- What is kept by each instruction that is listed and by each byte that is set aside holds
when the whole program is read. -/
theorem run_preserves {motive : Draft → Prop} {draft : Draft} (holds : motive draft)
    (lists : ∀ {draft : Draft} {instruction : Instruction} {tape : Tape}, motive draft →
      draft.tape.decode = (.ok instruction, tape) → motive (draft.addInstruction instruction tape))
    (setsAside : ∀ {draft : Draft} {error : DecodeError} {tape : Tape} {byte : Byte}
      {left : List Byte}, motive draft → draft.tape.decode = (.error error, tape) →
      draft.tape.rest = byte :: left → motive { draft with
        tape := { draft.tape with cursor := draft.tape.cursor + 1 }
        waiting := draft.waiting ++ [byte] }) :
    motive draft.run ∧ draft.run.tape.hasNext = false := by
  fun_induction run draft with
  | case1 draft more later turn induction =>
      apply induction
      rcases next?_cases more with
        ⟨instruction, tape, found, listed⟩ | ⟨error, tape, byte, left, failed, rest, aside⟩
      · obtain rfl := Option.some.inj (listed.symm.trans turn)
        exact lists holds found
      · obtain rfl := Option.some.inj (aside.symm.trans turn)
        exact setsAside holds failed rest
  | case2 draft more stopped =>
      rcases next?_cases more with ⟨_, _, -, turn⟩ | ⟨_, _, _, _, -, -, turn⟩
      · cases stopped.symm.trans turn
      · cases stopped.symm.trans turn
  | case3 draft ended => exact ⟨holds, Bool.eq_false_iff.mpr ended⟩

/-- What waits stands in front of what is still to be read. -/
def outlook (draft : Draft) : Listing :=
  draft.lines ++ draft.waiting.foldr Listing.addByte (Listing.ofBytes draft.tape.rest)

theorem outlook_addInstruction {draft : Draft} {instruction : Instruction} {tape : Tape}
    (found : draft.tape.decode = (.ok instruction, tape)) :
    (draft.addInstruction instruction tape).outlook = draft.outlook := by
  obtain ⟨valid, -, -⟩ := Tape.decode_eq_ok_iff.mp found
  rw [outlook, outlook, Tape.rest_eq_append found,
    Listing.ofBytes_of_read (Decode.instruction_encode valid tape.rest),
    Listing.foldr_addByte_instruction]
  simp [addInstruction, lines_flush]

theorem outlook_setAside {draft : Draft} {error : DecodeError} {tape : Tape} {byte : Byte}
    {left : List Byte} (failed : draft.tape.decode = (.error error, tape))
    (rest : draft.tape.rest = byte :: left) :
    outlook { draft with
      tape := { draft.tape with cursor := draft.tape.cursor + 1 }
      waiting := draft.waiting ++ [byte] } = draft.outlook := by
  obtain ⟨behind, unread, -⟩ := Tape.decode_eq_error failed
  have later : Tape.rest { draft.tape with cursor := draft.tape.cursor + 1 } = left := by
    have dropped := congrArg (List.drop 1) rest
    rwa [Tape.rest, List.drop_drop] at dropped
  rw [rest] at unread
  rw [outlook, outlook, later, rest, Listing.ofBytes_of_error unread, List.foldr_append]
  rfl

theorem lines_run (draft : Draft) : draft.run.flush.lines = draft.outlook := by
  obtain ⟨same, ended⟩ := run_preserves (motive := fun later => later.outlook = draft.outlook) rfl
    (fun same found => (outlook_addInstruction found).trans same)
    (fun same failed rest => (outlook_setAside failed rest).trans same)
  rw [← same, outlook, Tape.hasNext_eq_false_iff.mp ended, Listing.ofBytes, lines_flush]

end Draft

theorem Tape.listing_eq (tape : Tape) : tape.listing = (Listing.ofBytes tape.bytes).text := by
  rw [Tape.listing, Draft.lines_run]
  rfl

end ByteMachine
