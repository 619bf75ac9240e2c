import ByteMachine.Proofs.Machine.Effect

namespace ByteMachine.Machine

/-! How a program ends. Its steps complete one instruction each, until the end of the program
is reached or an instruction faults. From then on the machine stays as it is. -/

section Step

variable {machine : Machine}

theorem exists_steps {result : Except Fault Bool} (returned : machine.advance.result = result) :
    ∃ left, machine.step = left ∧ Steps machine result left :=
  ⟨machine.step, rfl, returned ▸ steps_advance machine⟩

theorem step_of_completed (completed : machine.advance.result = .ok true) :
    machine.step.status = .running ∧ machine.step.steps = machine.steps + 1 := by
  obtain ⟨left, stepped, steps⟩ := exists_steps completed
  rw [stepped]
  cases steps with
  | completes running more decoded executes =>
      obtain ⟨status, -, counted, -⟩ := executes.frame
      exact ⟨status.trans running, congrArg (· + 1) counted⟩

theorem step_of_ended (running : machine.status = .running)
    (ended : machine.tape.hasNext = false) :
    machine.step = { machine with status := .finished } := by
  simp [step, advance, running, ended]

/-- A running machine stops only where there is nothing left to fetch. -/
theorem ended_of_stopped (running : machine.status = .running)
    (stopped : machine.advance.result = .ok false) : machine.tape.hasNext = false := by
  obtain ⟨left, -, steps⟩ := exists_steps stopped
  cases steps with
  | finished status => simp [status] at running
  | ends running ended => exact ended

theorem status_of_failed {fault : Fault} (failed : machine.advance.result = .error fault) :
    machine.step.status = .faulted fault := by
  obtain ⟨left, stepped, steps⟩ := exists_steps failed
  rw [stepped]
  cases steps with
  | faulted status => exact status
  | misreads running more decoded => rfl
  | fails running more decoded failed => rfl

theorem kept_of_failed {fault : Fault} (failed : machine.advance.result = .error fault) :
    machine.step.memory = machine.memory ∧ machine.step.stack = machine.stack ∧
      machine.step.steps = machine.steps := by
  obtain ⟨left, stepped, steps⟩ := exists_steps failed
  rw [stepped]
  cases steps with
  | faulted status => exact ⟨rfl, rfl, rfl⟩
  | misreads running more decoded => exact ⟨rfl, rfl, rfl⟩
  | fails running more decoded failed => exact ⟨rfl, rfl, rfl⟩

theorem steps_of_failed {fault : Fault} (failed : machine.advance.result = .error fault) :
    machine.step.steps = machine.steps :=
  (kept_of_failed failed).2.2

/-- A machine that halts at a step is never changed by the steps behind it. -/
theorem run_of_halts {count limit : Nat} (within : count < limit)
    (halted : (machine.run count).step.status.isHalted = true) :
    machine.run limit = (machine.run count).step := by
  rw [show limit = count + 1 + (limit - (count + 1)) by omega, run_add, run_succ_step,
    run_of_isHalted halted]

end Step

variable {tape : Tape} {count limit : Nat} {fault : Fault}

/-- Each of the first `count` steps on the tape completes an instruction. -/
def Completes (tape : Tape) (count : Nat) : Prop :=
  ∀ index < count, ((start tape).run index).advance.result = .ok true

/-- The program reaches its end when its first `count` instructions are completed. -/
structure EndsAfter (tape : Tape) (count : Nat) : Prop where
  completed : Completes tape count
  ended : ((start tape).run count).tape.hasNext = false

/-- The instruction behind the first `count` ones, which are completed, faults. -/
structure FaultsAfter (tape : Tape) (count : Nat) (fault : Fault) : Prop where
  completed : Completes tape count
  failed : ((start tape).run count).advance.result = .error fault

theorem Completes.mono (completed : Completes tape limit) (within : count ≤ limit) :
    Completes tape count :=
  fun index before => completed index (Nat.lt_of_lt_of_le before within)

theorem Completes.succ (completed : Completes tape count)
    (next : ((start tape).run count).advance.result = .ok true) :
    Completes tape (count + 1) := by
  intro index before
  rcases Nat.lt_succ_iff_lt_or_eq.mp before with earlier | rfl
  · exact completed index earlier
  · exact next

/-- Every completed instruction is counted. -/
theorem Completes.running (completed : Completes tape count) :
    ((start tape).run count).status = .running ∧ ((start tape).run count).steps = count := by
  induction count with
  | zero => exact ⟨rfl, rfl⟩
  | succ count induction =>
      obtain ⟨-, counted⟩ := induction (completed.mono (Nat.le_succ count))
      obtain ⟨status, steps⟩ := step_of_completed (completed count (Nat.lt_succ_self count))
      rw [run_succ_step]
      exact ⟨status, steps.trans (congrArg (· + 1) counted)⟩

theorem Completes.not_isHalted (completed : Completes tape count) :
    ((start tape).run count).status.isHalted = false := by
  rw [completed.running.1]
  rfl

theorem EndsAfter.run_of_lt (ends : EndsAfter tape count) (within : count < limit) :
    (start tape).run limit = { (start tape).run count with status := .finished } := by
  have finished := step_of_ended ends.completed.running.1 ends.ended
  rw [run_of_halts within (by rw [finished]; rfl), finished]

theorem FaultsAfter.status_of_lt (faults : FaultsAfter tape count fault)
    (within : count < limit) : ((start tape).run limit).status = .faulted fault := by
  have status := status_of_failed faults.failed
  rw [run_of_halts within (by rw [status]; rfl), status]

/-- Within any number of steps a program ends, faults, or goes on. -/
theorem outcome_cases (tape : Tape) (limit : Nat) :
    (∃ count < limit, EndsAfter tape count) ∨
      (∃ count < limit, ∃ fault, FaultsAfter tape count fault) ∨ Completes tape limit := by
  induction limit with
  | zero => exact .inr (.inr nofun)
  | succ limit induction =>
      rcases induction with ⟨count, before, ends⟩ | ⟨count, before, fault, faults⟩ | completed
      · exact .inl ⟨count, Nat.lt_succ_of_lt before, ends⟩
      · exact .inr (.inl ⟨count, Nat.lt_succ_of_lt before, fault, faults⟩)
      · -- The step behind those completed decides.
        cases result : ((start tape).run limit).advance.result with
        | error fault =>
            exact .inr (.inl ⟨limit, Nat.lt_succ_self limit, fault, completed, result⟩)
        | ok more =>
            cases more with
            | true => exact .inr (.inr (completed.succ result))
            | false =>
                have ended := ended_of_stopped completed.running.1 result
                exact .inl ⟨limit, Nat.lt_succ_self limit, completed, ended⟩

end ByteMachine.Machine
