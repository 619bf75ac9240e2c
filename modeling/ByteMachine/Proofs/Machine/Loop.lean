import ByteMachine.Proofs.Machine.Cursor
import ByteMachine.Proofs.Machine.Log

namespace ByteMachine

/-! Why a program goes on. Each completed instruction moves the cursor forward, except a jump
that is taken to its own offset or to one before it. -/

namespace Machine

variable {machine : Machine} {count : Nat}

/-- The step completes a jump to its own offset or to one before it. -/
inductive JumpsBack (machine : Machine) : Prop where
  | jump {instruction : Instruction} {offset : Byte}
      (decoded : machine.tape.decode.1 = .ok instruction)
      (completed : machine.advance.result = .ok true)
      (goes : machine.fetched.GoesTo instruction offset)
      (moved : machine.step.tape.cursor = offset.toNat)
      (back : offset.toNat ≤ machine.tape.cursor) : JumpsBack machine

theorem jumpsBack_or_forward (completed : machine.advance.result = .ok true) :
    machine.JumpsBack ∨ machine.tape.cursor < machine.step.tape.cursor := by
  obtain ⟨left, -, steps⟩ := exists_steps completed
  cases steps with
  | @completes instruction moved left running more found executes =>
      have decoded : machine.tape.decode.1 = .ok instruction := congrArg Prod.fst found
      by_cases departs : machine.fetched.Departs instruction
      · obtain ⟨offset, goes, moved, -⟩ := goesTo_of_completed decoded completed departs
        rcases Nat.lt_or_ge machine.tape.cursor offset.toNat with ahead | back
        · exact .inr (moved ▸ ahead)
        · exact .inl (.jump decoded completed goes moved back)
      · rw [cursor_of_completed decoded completed departs]
        exact .inr (Nat.lt_add_of_pos_right (Tape.length_encode_pos instruction))

section Run

variable (completed : ∀ index < count, (machine.run index).advance.result = .ok true)

include completed

theorem jumpsBack_or_cursor_run :
    (∃ index < count, (machine.run index).JumpsBack) ∨
      machine.tape.cursor + count ≤ (machine.run count).tape.cursor := by
  induction count with
  | zero => exact .inr (Nat.le_refl _)
  | succ count induction =>
      rcases induction fun index before => completed index (Nat.lt_succ_of_lt before) with
        ⟨index, before, back⟩ | far
      · exact .inl ⟨index, Nat.lt_succ_of_lt before, back⟩
      rcases jumpsBack_or_forward (completed count (Nat.lt_succ_self count)) with back | forward
      · exact .inl ⟨count, Nat.lt_succ_self count, back⟩
      · rw [run_succ_step]
        exact .inr (by omega)

theorem steps_run_of_completed : (machine.run count).steps = machine.steps + count := by
  induction count with
  | zero => rfl
  | succ count induction =>
      have counted := induction fun index before => completed index (Nat.lt_succ_of_lt before)
      obtain ⟨-, stepped⟩ := step_of_completed (completed count (Nat.lt_succ_self count))
      rw [run_succ_step, stepped, counted, Nat.add_assoc]

/-- As many steps as there are bytes ahead move the cursor to the end at least. -/
theorem exists_jumpsBack {tape : Tape} (reached : Reached tape machine)
    (many : tape.bytes.length - machine.tape.cursor < count) :
    ∃ index < count, (machine.run index).JumpsBack := by
  rcases jumpsBack_or_cursor_run completed with back | far
  · exact back
  · have within := reached.cursor_le_of_run count
    omega

end Run

theorem steps_of_stopped (stops : machine.advance.result ≠ .ok true) :
    machine.step.steps = machine.steps := by
  cases result : machine.advance.result with
  | error fault => exact steps_of_failed result
  | ok more =>
      obtain ⟨left, stepped, steps⟩ := exists_steps result
      rw [stepped]
      cases steps with
      | finished status => rfl
      | ends running ended => rfl
      | completes running more decoded executes => exact absurd result stops

end Machine

namespace Recording

open Machine

variable {tape : Tape} {recording : Recording}

/-- The first step that completes no instruction ends the run. -/
theorem exists_returns_run
    (stops : ∃ index, (recording.machine.run index).advance.result ≠ .ok true) :
    ∃ count result left,
      (∀ index < count, (recording.machine.run index).advance.result = .ok true) ∧
      Returns recording .run result left ∧
      left.machine.steps = recording.machine.steps + count := by
  classical
  have completed (index : Nat) (before : index < Nat.find stops) :
      (recording.machine.run index).advance.result = .ok true :=
    not_not.mp (Nat.find_min stops before)
  have last := Nat.find_spec stops
  refine ⟨Nat.find stops, _, recording.run (Nat.find stops + 1), completed, .run ?_ rfl ?_, ?_⟩
  · intro index before
    rw [machine_run]
    exact completed index before
  · rw [machine_run]
    exact last
  · rw [machine_run, run_succ_step, steps_of_stopped last, steps_run_of_completed completed]

/-- More steps than there are bytes ahead do not all complete without a jump back. A run that
makes no such jump returns, and completes at most one instruction for each byte ahead. -/
theorem loops_only_by_jumping_back (reached : Reached tape recording.machine) :
    (∀ count, tape.bytes.length - recording.machine.tape.cursor < count →
      (∀ index < count, (recording.machine.run index).advance.result = .ok true) →
      ∃ index < count, (recording.machine.run index).JumpsBack) ∧
    ((∀ index, ¬ (recording.machine.run index).JumpsBack) →
      ∃ result left, Returns recording .run result left ∧
        left.machine.steps ≤ recording.machine.steps +
          (tape.bytes.length - recording.machine.tape.cursor)) := by
  have few {count : Nat}
      (completed : ∀ index < count, (recording.machine.run index).advance.result = .ok true)
      (straight : ∀ index, ¬ (recording.machine.run index).JumpsBack) :
      count ≤ tape.bytes.length - recording.machine.tape.cursor := by
    by_contra many
    obtain ⟨index, -, back⟩ := exists_jumpsBack completed reached (Nat.lt_of_not_le many)
    exact straight index back
  refine ⟨fun count many completed => exists_jumpsBack completed reached many, ?_⟩
  intro straight
  have stops : ∃ index, (recording.machine.run index).advance.result ≠ .ok true := by
    by_contra! endless
    have bound : tape.bytes.length - recording.machine.tape.cursor + 1 ≤ _ :=
      few (fun index _ => endless index) straight
    omega
  obtain ⟨count, result, left, completed, returns, counted⟩ := exists_returns_run stops
  have bound := few completed straight
  exact ⟨result, left, returns, by omega⟩

/-- A jump to itself goes on, and a jump to the end does not. -/
theorem loops_only_by_jumping_back_to_itself :
    let loop : Recording := { machine := start { bytes := [0xfe, 0x00] } }
    let pass : Recording := { machine := start { bytes := [0xfe, 0x02] } }
    (∃ index < 3, (loop.machine.run index).JumpsBack) ∧
      ∃ result left, Returns pass .run result left ∧ left.machine.steps ≤ 2 := by
  intro loop pass
  constructor
  · have reached : Reached { bytes := [0xfe, 0x00] } loop.machine := .start
    exact (loops_only_by_jumping_back reached).1 3 (by decide) (by decide +kernel)
  · have reached : Reached { bytes := [0xfe, 0x02] } pass.machine := .start
    refine (loops_only_by_jumping_back reached).2 ?_
    rintro index ⟨-, completed, -, moved, back⟩
    have halted : (pass.machine.run 1).step.status.isHalted = true := rfl
    match index with
    | 0 =>
        change 2 = _ at moved
        rw [← moved] at back
        exact absurd back (by decide)
    | 1 => cases completed
    | later + 2 =>
        rw [run_of_halts (show 1 < later + 2 by omega) halted] at completed
        cases completed

end Recording

end ByteMachine
