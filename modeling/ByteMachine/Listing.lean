import ByteMachine.Assembly.Statement
import ByteMachine.Tape

namespace ByteMachine

/-! Listings: a program as assembly text that assembles to the same bytes. -/

abbrev Listing := List Assembly.Statement

def Listing.text (listing : Listing) : String :=
  String.join (listing.map fun statement => statement.text ++ "\n")

/-- A listing in the making: how far the program is read, the bytes read last that wait for
a line of data, and the lines before them. -/
structure Draft where
  tape : Tape
  waiting : List Byte := []
  lines : Listing := []

namespace Draft

/-- Puts the waiting bytes, if there are any, on a line of their own. -/
def flush (draft : Draft) : Draft :=
  if draft.waiting.isEmpty then draft
  else { draft with waiting := [], lines := draft.lines ++ [.data draft.waiting] }

def addInstruction (draft : Draft) (instruction : Instruction) (tape : Tape) : Draft :=
  let flushed := draft.flush
  { flushed with tape := tape, lines := flushed.lines ++ [.instruction instruction] }

/-- Lists the instruction at the cursor. Where there is none, the tape goes back to where
the attempt began, and one byte is set aside. -/
def next? (draft : Draft) : Option Draft :=
  match draft.tape.decode with
  | (.ok instruction, tape) => some (draft.addInstruction instruction tape)
  | (.error _, tape) =>
      match tape.jump draft.tape.cursor with
      | .error _ => none
      | .ok back =>
          match back.next with
          | (.error _, _) => none
          | (.ok byte, tape) =>
              some { draft with tape := tape, waiting := draft.waiting ++ [byte] }

@[simp] theorem waiting_flush (draft : Draft) : draft.flush.waiting = [] := by
  unfold flush
  split
  · rename_i bare
    exact List.isEmpty_iff.mp bare
  · rfl

@[simp] theorem tape_addInstruction (draft : Draft) (instruction : Instruction) (tape : Tape) :
    (draft.addInstruction instruction tape).tape = tape := rfl

/-- Reading never stops before the end of the program. -/
theorem next?_cases {draft : Draft} (more : draft.tape.hasNext = true) :
    (∃ instruction tape, draft.tape.decode = (.ok instruction, tape) ∧
      draft.next? = some (draft.addInstruction instruction tape)) ∨
    ∃ error tape byte left, draft.tape.decode = (.error error, tape) ∧
      draft.tape.rest = byte :: left ∧
      draft.next? = some { draft with
        tape := { draft.tape with cursor := draft.tape.cursor + 1 }
        waiting := draft.waiting ++ [byte] } := by
  unfold next?
  cases result : draft.tape.decode with
  | mk answer tape =>
      cases answer with
      | ok instruction => exact .inl ⟨instruction, tape, rfl, rfl⟩
      | error error =>
          have within : draft.tape.cursor < draft.tape.bytes.length := of_decide_eq_true more
          have same := Tape.bytes_of_decode result
          have back : tape.jump draft.tape.cursor = .ok draft.tape := by
            refine Tape.jump_eq_ok_iff.mpr ⟨by rw [same]; exact Nat.le_of_lt within, ?_⟩
            rw [same]
          have rest : draft.tape.rest = draft.tape.bytes.get ⟨draft.tape.cursor, within⟩ ::
              draft.tape.bytes.drop (draft.tape.cursor + 1) := List.drop_eq_getElem_cons within
          refine .inr ⟨error, tape, _, _, rfl, rest, ?_⟩
          simp only [back, Tape.next_of_rest rest]

/-- Reads on to the end of the program. -/
def run (draft : Draft) : Draft :=
  if _more : draft.tape.hasNext then
    match _turn : draft.next? with
    | some later => later.run
    | none => draft
  else draft
  termination_by draft.tape.bytes.length - draft.tape.cursor
  decreasing_by
    have within : draft.tape.cursor < draft.tape.bytes.length := of_decide_eq_true _more
    rcases next?_cases _more with ⟨instruction, tape, found, turn⟩ | ⟨_, _, _, _, -, -, turn⟩
    · obtain rfl := Option.some.inj (turn.symm.trans _turn)
      have forward := Tape.cursor_lt_of_decode found
      rw [tape_addInstruction, Tape.bytes_of_decode found]
      omega
    · obtain rfl := Option.some.inj (turn.symm.trans _turn)
      dsimp only
      omega

end Draft

/-- The canonical assembly text of a program, wherever its cursor is. -/
def Tape.listing (tape : Tape) : String :=
  (Draft.run { tape := tape.rewind }).flush.lines.text

end ByteMachine
