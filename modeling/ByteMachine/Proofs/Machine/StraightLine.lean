import ByteMachine.Proofs.Assembly.Canonical
import ByteMachine.Proofs.Machine.Log
import ByteMachine.Proofs.Machine.Outcome

namespace ByteMachine

/-! Straight-line programs. A machine executes the instructions of a program without jumps in
the order in which the listing shows them, up to the end or to the first one that faults. -/

/-- The instruction may go on elsewhere than behind itself. -/
def Instruction.isJump : Instruction → Bool
  | .jump _ => true
  | .branch _ _ _ _ => true
  | _ => false

namespace Tape

/-- Reading instruction after instruction from the cursor on gives the entries, each of them
an offset and the instruction there, and ends with the program. -/
inductive Reads : Tape → List (Nat × Instruction) → Prop where
  | nil {tape : Tape} (ended : tape.hasNext = false) : Reads tape []
  | cons {tape moved : Tape} {instruction : Instruction} {entries : List (Nat × Instruction)}
      (decoded : tape.decode = (.ok instruction, moved)) (behind : moved.Reads entries) :
      Reads tape ((tape.cursor, instruction) :: entries)

namespace Reads

variable {tape : Tape} {entries : List (Nat × Instruction)}

theorem eq_nil (reads : tape.Reads entries) (ended : tape.hasNext = false) : entries = [] := by
  cases reads with
  | nil ended => rfl
  | cons decoded behind =>
      obtain ⟨forward, within⟩ := cursor_of_decode decoded
      simp only [hasNext, decide_eq_false_iff_not] at ended
      omega

theorem exists_cons (reads : tape.Reads entries) (more : tape.hasNext = true) :
    ∃ instruction moved later, tape.decode = (.ok instruction, moved) ∧
      entries = (tape.cursor, instruction) :: later ∧ moved.Reads later := by
  cases reads with
  | nil ended =>
      rw [ended] at more
      cases more
  | cons decoded behind => exact ⟨_, _, _, decoded, rfl, behind⟩

theorem ofBytes_rest (reads : tape.Reads entries) :
    Listing.ofBytes tape.rest = entries.map fun entry => .instruction entry.2 := by
  induction reads with
  | nil ended => rw [hasNext_eq_false_iff.mp ended, Listing.ofBytes, List.map_nil]
  | cons decoded behind induction =>
      obtain ⟨valid, -, -⟩ := decode_eq_ok_iff.mp decoded
      rw [rest_eq_append decoded,
        Listing.ofBytes_of_read (Decode.instruction_encode valid _), induction, List.map_cons]

theorem lines_listing (reads : tape.rewind.Reads entries) :
    Assembly.lines tape.listing = entries.map fun entry => entry.2.text.toList := by
  have listed : Listing.ofBytes tape.bytes =
      entries.map fun entry => .instruction entry.2 := reads.ofBytes_rest
  rw [listing_eq, listed, Listing.lines_text, List.map_map]
  rfl

end Reads

end Tape

/-- The lines of a listing as a log traces them, each behind the offset of its instruction. -/
def traceLines (offsets : List Nat) (listing : String) : List String :=
  List.zipWith (fun offset line => traceLine offset (String.ofList line)) offsets
    (Assembly.lines listing)

theorem traceLines_listing {tape : Tape} {entries : List (Nat × Instruction)}
    (reads : tape.rewind.Reads entries) :
    traceLines (entries.map Prod.fst) tape.listing =
      entries.map fun entry => traceLine entry.1 entry.2.text := by
  rw [traceLines, reads.lines_listing]
  clear reads
  induction entries with
  | nil => rfl
  | cons entry entries induction =>
      simp only [List.map_cons, List.zipWith_cons_cons, String.ofList_toList, induction]

namespace Machine

theorem Executes.tape_of_not_isJump {machine left : Machine} {instruction : Instruction}
    (executes : Executes machine instruction left) (straight : instruction.isJump = false) :
    left.tape = machine.tape := by
  cases executes with
  | jump resolved within => cases straight
  | branchTaken leftNamed rightNamed resolved holds within => cases straight
  | _ => rfl

section Step

variable {machine : Machine} {entries : List (Nat × Instruction)}

/-- A completed step executes the first of the instructions ahead and leaves the others. -/
theorem step_of_reads (reads : machine.tape.Reads entries)
    (straight : ∀ entry ∈ entries, entry.2.isJump = false)
    (completed : machine.advance.result = .ok true) :
    ∃ entry later, entries = entry :: later ∧ machine.decoding? = some entry ∧
      machine.step.tape.Reads later := by
  obtain ⟨left, stepped, steps⟩ := exists_steps completed
  cases steps with
  | completes running more decoded executes =>
      obtain ⟨instruction, moved, later, again, rfl, behind⟩ := reads.exists_cons more
      rw [decoded] at again
      cases again
      refine ⟨_, later, rfl, decoding?_of_ok running more decoded, ?_⟩
      have kept := executes.tape_of_not_isJump (straight _ List.mem_cons_self)
      rw [stepped, kept]
      exact behind

/-- All instructions ahead can be decoded, so that a fault comes from executing the first. -/
theorem fault_of_reads {fault : Fault} (running : machine.status = .running)
    (reads : machine.tape.Reads entries) (failed : machine.advance.result = .error fault) :
    ∃ instruction later, entries = (fault.offset, instruction) :: later ∧
      machine.decoding? = some (fault.offset, instruction) := by
  obtain ⟨left, -, steps⟩ := exists_steps failed
  cases steps with
  | faulted status => simp [status] at running
  | misreads running more decoded =>
      obtain ⟨instruction, moved, later, again, -, -⟩ := reads.exists_cons more
      rw [decoded] at again
      cases again
  | fails running more decoded failed =>
      obtain ⟨instruction, moved, later, again, rfl, -⟩ := reads.exists_cons more
      rw [decoded] at again
      cases again
      exact ⟨_, later, rfl, decoding?_of_ok running more decoded⟩

end Step

variable {tape : Tape} {entries : List (Nat × Instruction)} {count : Nat}

/-- As long as all steps complete, the instructions behind the cursor are those traced. -/
theorem Completes.reads (completed : Completes tape count)
    (reads : tape.rewind.Reads entries)
    (straight : ∀ entry ∈ entries, entry.2.isJump = false) :
    ∃ done ahead, entries = done ++ ahead ∧ done.length = count ∧
      (start tape).trace count = done ∧ ((start tape).run count).tape.Reads ahead := by
  induction count with
  | zero => exact ⟨[], entries, rfl, rfl, rfl, reads⟩
  | succ count induction =>
      obtain ⟨done, ahead, rfl, length, traced, behind⟩ :=
        induction (completed.mono (Nat.le_succ count))
      obtain ⟨entry, later, rfl, decoded, left⟩ := step_of_reads behind
        (fun entry member => straight entry (List.mem_append_right done member))
        (completed count (Nat.lt_succ_self count))
      refine ⟨done ++ [entry], later, by simp, by simp [length], ?_, ?_⟩
      · rw [trace_succ, traced, decoded]
        rfl
      · rw [run_succ_step]
        exact left

/-- The program ends behind its last instruction. -/
theorem EndsAfter.trace_eq (ends : EndsAfter tape count) (reads : tape.rewind.Reads entries)
    (straight : ∀ entry ∈ entries, entry.2.isJump = false) :
    entries.length = count ∧ (start tape).trace (count + 1) = entries := by
  obtain ⟨done, ahead, rfl, length, traced, behind⟩ := ends.completed.reads reads straight
  obtain rfl := behind.eq_nil ends.ended
  rw [trace_succ, traced, decoding?_of_ended ends.ended, List.append_nil]
  exact ⟨length, List.append_nil done⟩

/-- The instruction that faults is the next one, and the last that is traced. -/
theorem FaultsAfter.trace_eq {fault : Fault} (faults : FaultsAfter tape count fault)
    (reads : tape.rewind.Reads entries)
    (straight : ∀ entry ∈ entries, entry.2.isJump = false) :
    (entries.map Prod.fst)[count]? = some fault.offset ∧
      (start tape).trace (count + 1) = entries.take (count + 1) := by
  obtain ⟨done, ahead, rfl, rfl, traced, behind⟩ := faults.completed.reads reads straight
  obtain ⟨instruction, later, rfl, decoded⟩ :=
    fault_of_reads faults.completed.running.1 behind faults.failed
  rw [trace_succ, traced, decoded]
  exact ⟨by simp, by simp [List.take_append]⟩

end Machine

namespace Recording

open Machine

section Run

variable {recording left : Recording} {result : Except Fault Bool}

/-- A run returns in one way only: the first step that completes no instruction decides. -/
theorem Returns.run_iff (returns : Returns recording .run result left)
    {other : Except Fault Bool} {right : Recording} :
    Returns recording .run other right ↔ other = result ∧ right = left := by
  constructor
  · intro again
    cases returns with
    | @run result count completed last stops =>
        cases again with
        | @run other countAgain completedAgain lastAgain stopsAgain =>
            have same : countAgain = count := by
              rcases Nat.lt_trichotomy countAgain count with before | same | behind
              · exact absurd (lastAgain.symm.trans (completed _ before)) stopsAgain
              · exact same
              · exact absurd (last.symm.trans (completedAgain _ behind)) stops
            subst same
            exact ⟨lastAgain.symm.trans last, rfl⟩
  · rintro ⟨rfl, rfl⟩
    exact returns

end Run

section Start

variable {tape : Tape} {count : Nat}

theorem returns_run_of_completes {result : Except Fault Bool}
    (completed : Completes tape count)
    (last : ((start tape).run count).advance.result = result) (stops : result ≠ .ok true) :
    Returns { machine := start tape } .run result (run (count + 1) { machine := start tape }) := by
  refine .run (fun index before => ?_) ?_ stops
  · rw [machine_run]
    exact completed index before
  · rw [machine_run]
    exact last

theorem lines_run (tape : Tape) (count : Nat) :
    (run count { machine := start tape }).lines =
      ((start tape).trace count).map (fun entry => traceLine entry.1 entry.2.text) ++
        ((start tape).run count).closingLines := by
  have tells := (tells_start tape).run count
  rw [Nat.zero_add] at tells
  rw [lines, tells.events, text_told, machine_run]

end Start

/-- A program that can be read to its end and has no jumps runs to its end or to a fault. Its
log traces the lines of its listing, up to the one that faults. -/
theorem run_follows_listing {tape : Tape} {entries : List (Nat × Instruction)}
    (reads : tape.rewind.Reads entries)
    (straight : ∀ entry ∈ entries, entry.2.isJump = false) :
    (Assembly.lines tape.listing).length = entries.length ∧
    ∃ result left,
      (∀ other after, Returns { machine := start tape } .run other after ↔
        other = result ∧ after = left) ∧
      (result = .ok false ∧ left.machine.status = .finished ∧
          left.machine.steps = entries.length ∧
          left.lines = traceLines (entries.map Prod.fst) tape.listing ++
            ["DEBUG program finished after " ++ toString entries.length ++ " instructions"] ∨
        ∃ count fault, result = .error fault ∧ left.machine.status = .faulted fault ∧
          (entries.map Prod.fst)[count]? = some fault.offset ∧
          left.machine.steps = count ∧
          left.lines = (traceLines (entries.map Prod.fst) tape.listing).take (count + 1) ++
            ["WARN halted: " ++ fault.message]) := by
  refine ⟨by simp [reads.lines_listing], ?_⟩
  rw [traceLines_listing reads]
  rcases outcome_cases tape (entries.length + 1) with
    ⟨count, -, ends⟩ | ⟨count, -, fault, faults⟩ | completed
  · obtain ⟨length, traced⟩ := ends.trace_eq reads straight
    obtain ⟨running, counted⟩ := ends.completed.running
    have stopped : ((start tape).run count).advance.result = .ok false := by
      simp [advance, running, ends.ended]
    refine ⟨.ok false, run (count + 1) { machine := start tape },
      fun _ _ => (returns_run_of_completes ends.completed stopped (by simp)).run_iff, .inl ?_⟩
    rw [lines_run, machine_run, traced, ends.run_of_lt (Nat.lt_succ_self count), closingLines,
      length, counted]
    exact ⟨rfl, rfl, rfl, rfl⟩
  · obtain ⟨offset, traced⟩ := faults.trace_eq reads straight
    have counted : ((start tape).run (count + 1)).steps = count := by
      rw [run_succ_step, steps_of_failed faults.failed, faults.completed.running.2]
    refine ⟨.error fault, run (count + 1) { machine := start tape },
      fun _ _ => (returns_run_of_completes faults.completed faults.failed (by simp)).run_iff,
      .inr ⟨count, fault, rfl, ?_⟩⟩
    rw [lines_run, machine_run, traced, counted, closingLines,
      faults.status_of_lt (Nat.lt_succ_self count), List.map_take]
    exact ⟨rfl, offset, rfl, rfl⟩
  · obtain ⟨done, ahead, rfl, length, -, -⟩ := completed.reads reads straight
    simp only [List.length_append] at length
    omega

/-- The byte pushed looks like the start of an instruction, and the second pop faults. -/
theorem run_follows_listing_underflow :
    let tape : Tape := ⟨[0xfd, 0xa0, 0xfc, 0xfc], 4⟩
    let entries : List (Nat × Instruction) :=
      [(0, .push (.literal 0xa0)), (2, .pop), (3, .pop)]
    tape.rewind.Reads entries ∧ (∀ entry ∈ entries, entry.2.isJump = false) ∧
      ∃ left, Returns { machine := start tape } .run (.error ⟨3, .stackUnderflow⟩) left ∧
        left.machine.steps = 2 ∧
        left.lines = ["TRACE 0x0000  PUSH 0xa0", "TRACE 0x0002  POP", "TRACE 0x0003  POP",
          "WARN halted: stack underflow at offset 3"] := by
  intro tape entries
  have push : tape.rewind.decode = (.ok (.push (.literal 0xa0)), { tape with cursor := 2 }) := rfl
  have pop : Tape.decode { tape with cursor := 2 } = (.ok .pop, { tape with cursor := 3 }) := rfl
  have last : Tape.decode { tape with cursor := 3 } = (.ok .pop, tape) := rfl
  have reads : tape.rewind.Reads entries := .cons push (.cons pop (.cons last (.nil rfl)))
  have straight : ∀ entry ∈ entries, entry.2.isJump = false := by decide
  have completed : Completes tape 2 := by
    unfold Completes
    decide +kernel
  have failed : ((start tape).run 2).advance.result = .error ⟨3, .stackUnderflow⟩ := rfl
  have returned := returns_run_of_completes completed failed (by simp)
  obtain ⟨-, result, left, returns, outcome⟩ := run_follows_listing reads straight
  obtain ⟨rfl, rfl⟩ := (returns _ _).mp returned
  have counted : (run 3 { machine := start tape }).machine.steps = 2 := by decide +kernel
  refine ⟨reads, straight, _, returned, counted, ?_⟩
  rcases outcome with ⟨⟨⟩, -⟩ | ⟨count, fault, ⟨⟩, -, -, steps, lines⟩
  obtain rfl : 2 = count := counted.symm.trans steps
  rw [lines]
  decide +kernel

end Recording

end ByteMachine
