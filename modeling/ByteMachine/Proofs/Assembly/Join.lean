import Mathlib.Control.Monad.Basic
import ByteMachine.Proofs.Assembly.Lines

namespace ByteMachine

/-! Two texts that are joined at an end of line are assembled one after the other. Nothing but
the number of the line is carried from the first text into the second. -/

theorem Text.length_split {α : Type} (isSeparator : α → Bool) (items : List α) :
    (split isSeparator items).length = items.countP isSeparator + 1 := by
  induction items with
  | nil => rfl
  | cons item items induction =>
      obtain ⟨piece, pieces, shape⟩ :=
        List.exists_cons_of_ne_nil (split_ne_nil isSeparator items)
      rw [shape] at induction
      by_cases parts : isSeparator item = true
      · simp [addItem, parts, shape, ← induction]
      · simp [addItem, parts, shape, ← induction]

namespace Assembly

/-- The same error in a text with so many lines in front. -/
def Error.below (above : Nat) (error : Error) : Error :=
  { error with line := error.line + above }

/-- The error counts lines from wherever the first line does. -/
theorem assembleLines_add (number above : Nat) (lines : List (List Char)) :
    assembleLines (number + above) lines =
      (assembleLines number lines).mapError (Error.below above) := by
  induction lines generalizing number with
  | nil => rfl
  | cons line lines induction =>
      have next : number + above + 1 = number + 1 + above := by omega
      rw [assembleLines, assembleLines, next, induction]
      cases assembleLine line with
      | error cause => rfl
      | ok first =>
          cases assembleLines (number + 1) lines with
          | error error => rfl
          | ok rest => rfl

theorem assembleLines_append (number : Nat) (above below : List (List Char)) :
    assembleLines number (above ++ below) = do
      let first ← assembleLines number above
      let rest ← assembleLines (number + above.length) below
      return first ++ rest := by
  induction above generalizing number with
  | nil => exact (bind_pure (assembleLines number below)).symm
  | cons line above induction =>
      have next : number + (above.length + 1) = number + 1 + above.length := by omega
      rw [List.cons_append, assembleLines, assembleLines, induction, List.length_cons, next]
      cases assembleLine line with
      | error cause => rfl
      | ok first =>
          cases assembleLines (number + 1) above with
          | error error => rfl
          | ok later =>
              cases assembleLines (number + 1 + above.length) below with
              | error error => rfl
              | ok rest => exact congrArg Except.ok (List.append_assoc first later rest).symm

theorem length_pieces (text : String) : (pieces text).length = text.toList.count '\n' + 1 :=
  Text.length_split _ _

theorem assemble_append (first second : String) :
    assemble (first ++ "\n" ++ second) = do
      let above ← assemble first
      let below ← (assemble second).mapError (Error.below (pieces first).length)
      return above ++ below := by
  rw [assemble_eq, assemble_eq, assemble_eq, pieces_join, assembleLines_append,
    assembleLines_add]

/-- The first text decides if it is in error. Otherwise the second one does, whose lines are
then counted on from those of the first; and two texts without errors give the bytes of the
first and behind them those of the second. -/
theorem assemble_join (first second : String) :
    (∀ error, assemble first = .error error →
      assemble (first ++ "\n" ++ second) = .error error) ∧
    (∀ above below, assemble first = .ok above → assemble second = .ok below →
      assemble (first ++ "\n" ++ second) = .ok (above ++ below)) ∧
    (∀ above error, assemble first = .ok above → assemble second = .error error →
      assemble (first ++ "\n" ++ second) =
        .error { error with line := error.line + (1 + first.toList.count '\n') }) := by
  rw [assemble_append]
  refine ⟨?_, ?_, ?_⟩
  · intro error failed
    rw [failed]
    rfl
  · intro above below done later
    rw [done, later]
    rfl
  · intro above error done failed
    rw [done, failed, length_pieces, Nat.add_comm _ 1]
    rfl

/-- The first text ends in a carriage return on a line of its own. -/
theorem assemble_join_carriage_return :
    let good := "push 7 ; seven\n\r"
    let bad := "pop\njmp , ; where?"
    let error : Error := { line := 2, cause := .missingOperand "JMP" 1 }
    (assemble good = .ok [0xfd, 0x07] ∧ assemble bad = .error error) ∧
      assemble (bad ++ "\n" ++ good) = .error error ∧
      assemble (good ++ "\n" ++ good) = .ok [0xfd, 0x07, 0xfd, 0x07] ∧
      assemble (good ++ "\n" ++ bad) = .error { error with line := 4 } := by
  intro good bad error
  have assembled : assemble good = .ok [0xfd, 0x07] := by decide +kernel
  have failed : assemble bad = .error error := by decide +kernel
  have single : good.toList.count '\n' = 1 := by decide +kernel
  refine ⟨⟨assembled, failed⟩, ?_, ?_, ?_⟩
  · exact (assemble_join bad good).1 error failed
  · exact (assemble_join good good).2.1 _ _ assembled assembled
  · have moved := (assemble_join good bad).2.2 _ error assembled failed
    rwa [single] at moved

end Assembly

end ByteMachine
