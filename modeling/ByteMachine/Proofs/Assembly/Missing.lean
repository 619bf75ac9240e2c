import ByteMachine.Proofs.Assembly.Range

namespace ByteMachine

/-! A line that ends too early is told from one that no further token mends. A missing operand
is reported just if some continuation of the line is accepted. -/

namespace Assembly

def Cause.isMissing : Cause → Bool
  | missingOperand _ _ => true
  | _ => false

/-- The cause that readers of an instruction give at the end of a line. -/
def missingOf (opcode : Opcode) : Cause :=
  .missingOperand opcode.mnemonic (operandCount opcode)

namespace Parse

variable {α β : Type} {reader : Parse α} {tokens : List Token} {opcode : Opcode}
  {cause : Cause}

/-- How a reader fails on tokens that others may follow: they end too early and can be
completed, or they are refused for the same cause whatever follows. -/
inductive Fails (opcode : Opcode) (reader : Parse α) (tokens : List Token) : Cause → Prop where
  | early (more : List Token) (result : α)
      (completed : reader (tokens ++ more) = .ok (result, [])) :
      Fails opcode reader tokens (missingOf opcode)
  | final {cause : Cause} (other : cause.isMissing = false)
      (refused : ∀ more, reader (tokens ++ more) = .error cause) :
      Fails opcode reader tokens cause

/-- The reader reports the end of the line just if more tokens could help. -/
structure ReportsEnd (opcode : Opcode) (reader : Parse α) : Prop where
  completes : ∃ tokens result, reader tokens = .ok (result, [])
  /-- What the reader takes from the front does not depend on what follows. -/
  takes : ∀ {tokens left : List Token} {result : α}, reader tokens = .ok (result, left) →
    ∃ used, tokens = used ++ left ∧ ∀ more, reader (used ++ more) = .ok (result, more)
  fails : ∀ {tokens : List Token} {cause : Cause}, reader tokens = .error cause →
    Fails opcode reader tokens cause

namespace ReportsEnd

theorem takes_all (reports : ReportsEnd opcode reader) {result : α}
    (read : reader tokens = .ok (result, [])) (more : List Token) :
    reader (tokens ++ more) = .ok (result, more) := by
  obtain ⟨used, rfl, taken⟩ := reports.takes read
  rw [List.append_nil]
  exact taken more

theorem pure (result : α) : ReportsEnd opcode (pure result) where
  completes := ⟨[], result, rfl⟩
  takes := by
    intro tokens left other read
    cases read
    exact ⟨[], rfl, fun _ => rfl⟩
  fails := nofun

theorem bind {after : α → Parse β} (first : ReportsEnd opcode reader)
    (later : ∀ found, ReportsEnd opcode (after found)) :
    ReportsEnd opcode (reader >>= after) where
  completes := by
    obtain ⟨tokens, found, read⟩ := first.completes
    obtain ⟨tokensLater, result, readLater⟩ := (later found).completes
    exact ⟨tokens ++ tokensLater, result, bind_ok (first.takes_all read _) readLater⟩
  takes := by
    intro tokens left result read
    obtain ⟨found, middle, read, readLater⟩ := bind_eq_ok.mp read
    obtain ⟨used, rfl, taken⟩ := first.takes read
    obtain ⟨usedLater, rfl, takenLater⟩ := (later found).takes readLater
    refine ⟨used ++ usedLater, (List.append_assoc _ _ _).symm, fun more => ?_⟩
    rw [List.append_assoc, bind_of_ok (taken _), takenLater]
  fails := by
    intro tokens cause failed
    rcases bind_eq_error failed with begun | ⟨found, middle, read, ended⟩
    · cases first.fails begun with
      | early more found completed =>
          obtain ⟨tokensLater, result, readLater⟩ := (later found).completes
          have taken := first.takes_all completed tokensLater
          rw [List.append_assoc] at taken
          exact .early _ result (bind_ok taken readLater)
      | final other refused => exact .final other fun more => bind_of_error (refused more)
    · obtain ⟨used, rfl, taken⟩ := first.takes read
      cases (later found).fails ended with
      | early more result completed =>
          refine .early more result ?_
          rw [List.append_assoc, bind_of_ok (taken _), completed]
      | final other refused =>
          refine .final other fun more => ?_
          rw [List.append_assoc, bind_of_ok (taken _), refused]

end ReportsEnd

theorem Fails.map {outer : Parse β} {around : List Token} {change : α → β}
    (fails : Fails opcode reader tokens cause)
    (same : ∀ more, outer (around ++ more) =
      (do return change (← reader) : Parse β) (tokens ++ more)) :
    Fails opcode outer around cause := by
  cases fails with
  | early more result completed =>
      exact .early more (change result) ((same more).trans (bind_ok completed rfl))
  | final other refused =>
      exact .final other fun more => (same more).trans (bind_of_error (refused more))

section Operand

variable {levels : Nat}

end Operand

end Parse

namespace Statement

variable {tokens : List Token} {opcode : Opcode} {cause : Cause} {statement : Statement}

def mnemonic : Statement → String
  | instruction written => written.opcode.mnemonic
  | data _ => dataMnemonic

section Report

variable {mnemonic : String} {expected : Nat}
  (failed : ofTokens tokens = .error (.missingOperand mnemonic expected))

include failed

end Report

end Statement

end Assembly

end ByteMachine
