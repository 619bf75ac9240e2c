import ByteMachine.Proofs.Machine.Invariant

namespace ByteMachine

/-! What a machine logs. Every decoded instruction is traced, halting is logged once, and
nothing is logged or changed behind it. -/

theorem Status.eq_running {status : Status} (goes : status.isHalted = false) :
    status = .running := by
  cases status with
  | running => rfl
  | finished => cases goes
  | faulted fault => cases goes

/-- A line of the log for an instruction. Its offset has four hexadecimal digits, or as many as
it needs. -/
def traceLine (offset : Nat) (text : String) : String :=
  "TRACE 0x" ++ String.ofList ((Nat.toDigits 16 offset).leftpad 4 '0') ++ "  " ++ text

theorem Event.text_executing (offset : Nat) (instruction : Instruction) :
    (executing offset instruction).text = traceLine offset instruction.text := by
  have marked : "TRACE " ++ "0x" = "TRACE 0x" := by decide
  unfold text offsetText traceLine
  simp only [← String.append_assoc]
  rw [marked]

namespace Machine

/-- The instruction that the next step decodes, with its offset. -/
def decoding? (machine : Machine) : Option (Nat × Instruction) :=
  if machine.status = .running ∧ machine.tape.hasNext = true then
    machine.tape.decode.1.toOption.map (machine.tape.cursor, ·)
  else none

/-- The instructions that the first `count` steps decode, in the order of the steps. -/
def trace (machine : Machine) (count : Nat) : List (Nat × Instruction) :=
  (List.range count).filterMap fun index => (machine.run index).decoding?

/-- The machine halted at an instruction that it could decode. -/
def faultedAfterDecoding (machine : Machine) : Bool :=
  match machine.status with
  | .faulted fault => (Tape.decode { machine.tape with cursor := fault.offset }).1.isOk
  | _ => false

/-- How the log of a halted machine ends. -/
def closing (machine : Machine) : List Event :=
  match machine.status with
  | .running => []
  | .finished => [.finished machine.steps]
  | .faulted fault => [.halted fault]

def closingLines (machine : Machine) : List String :=
  match machine.status with
  | .running => []
  | .finished => ["DEBUG program finished after " ++ toString machine.steps ++ " instructions"]
  | .faulted fault => ["WARN halted: " ++ fault.message]

theorem text_closing (machine : Machine) :
    machine.closing.map Event.text = machine.closingLines := by
  unfold closing closingLines
  split <;> rfl

theorem trace_succ (machine : Machine) (count : Nat) :
    machine.trace (count + 1) = machine.trace count ++ (machine.run count).decoding?.toList := by
  rw [trace, trace, List.range_succ, List.filterMap_append]
  cases found : (machine.run count).decoding? with
  | none => simp [found]
  | some entry => simp [found]

section Decoding

variable {machine : Machine} {moved : Tape}

theorem decoding?_of_isHalted (halted : machine.status.isHalted = true) :
    machine.decoding? = none := by
  apply if_neg
  rintro ⟨running, -⟩
  rw [running] at halted
  cases halted

theorem decoding?_of_ended (ended : machine.tape.hasNext = false) :
    machine.decoding? = none := by
  apply if_neg
  rintro ⟨-, more⟩
  rw [ended] at more
  cases more

theorem decoding?_of_error {error : DecodeError}
    (decoded : machine.tape.decode = (.error error, moved)) : machine.decoding? = none := by
  unfold decoding?
  split
  · rw [decoded]
    rfl
  · rfl

theorem decoding?_of_ok {instruction : Instruction} (running : machine.status = .running)
    (more : machine.tape.hasNext = true)
    (decoded : machine.tape.decode = (.ok instruction, moved)) :
    machine.decoding? = some (machine.tape.cursor, instruction) := by
  rw [decoding?, if_pos ⟨running, more⟩, decoded]
  rfl

/-- Decoding moves the cursor and nothing else, so that the instruction can be read again. -/
theorem decode_again {result : Except DecodeError Instruction}
    (decoded : machine.tape.decode = (result, moved)) :
    (Tape.decode { moved with cursor := machine.tape.cursor }).1 = result := by
  have same : moved.bytes = machine.tape.bytes := by
    rw [← machine.tape.bytes_read Decode.instruction]
    exact congrArg (fun read => read.2.bytes) decoded.symm
  rw [same]
  exact congrArg Prod.fst decoded

end Decoding

/-- A step logs the instruction that it decodes, and the halt, if it halts the machine. -/
theorem events_of_running {machine : Machine} (running : machine.status = .running) :
    machine.advance.events =
      machine.decoding?.toList.map (fun entry => .executing entry.1 entry.2) ++
        machine.step.closing := by
  cases more : machine.tape.hasNext with
  | false =>
      rw [decoding?_of_ended more]
      simp [step, advance, closing, running, more]
  | true =>
      have fetches : machine.advance = machine.fetch := by simp [advance, running, more]
      rw [step, fetches, fetch]
      cases decoded : machine.tape.decode with
      | mk result moved =>
          cases result with
          | error error =>
              rw [decoding?_of_error decoded]
              rfl
          | ok instruction =>
              rw [decoding?_of_ok running more decoded]
              cases executed : execute instruction
                  { machine with tape := moved, offset := machine.tape.cursor } with
              | error cause left =>
                  simp only [executed]
                  rfl
              | ok done left =>
                  obtain ⟨status, -⟩ := (execute_eq_ok_iff.mp executed).frame
                  simp only [executed]
                  simp [closing, status, running]

/-- The number of decoded instructions. All but one that faulted are counted as steps. -/
def decodedCount (machine : Machine) : Nat :=
  machine.steps + if machine.faultedAfterDecoding then 1 else 0

section Count

variable {machine : Machine}

theorem decodedCount_of_running (running : machine.status = .running) :
    machine.decodedCount = machine.steps := by
  simp [decodedCount, faultedAfterDecoding, running]

theorem decodedCount_of_finished (finished : machine.status = .finished) :
    machine.decodedCount = machine.steps := by
  simp [decodedCount, faultedAfterDecoding, finished]

theorem decodedCount_of_faulted {fault : Fault} (faulted : machine.status = .faulted fault) :
    machine.decodedCount = machine.steps +
      if (Tape.decode { machine.tape with cursor := fault.offset }).1.isOk then 1 else 0 := by
  simp [decodedCount, faultedAfterDecoding, faulted]

theorem decodedCount_step (machine : Machine) :
    machine.step.decodedCount = machine.decodedCount + machine.decoding?.toList.length := by
  have steps := steps_advance machine
  generalize machine.advance.result = result at steps
  generalize machine.step = left at steps ⊢
  cases steps with
  | finished status =>
      rw [decoding?_of_isHalted (by rw [status]; rfl)]
      rfl
  | faulted status =>
      rw [decoding?_of_isHalted (by rw [status]; rfl)]
      rfl
  | ends running ended =>
      rw [decodedCount_of_running running, decoding?_of_ended ended]
      exact decodedCount_of_finished rfl
  | misreads running more decoded =>
      rw [decodedCount_of_running running, decoding?_of_error decoded,
        decodedCount_of_faulted rfl, decode_again decoded]
      rfl
  | fails running more decoded executed =>
      rw [decodedCount_of_running running, decoding?_of_ok running more decoded,
        decodedCount_of_faulted rfl, decode_again decoded]
      rfl
  | completes running more decoded executes =>
      obtain ⟨status, -, counted, -⟩ := executes.frame
      rw [decodedCount_of_running running, decoding?_of_ok running more decoded]
      refine Eq.trans (decodedCount_of_running ?_) (congrArg (· + 1) counted)
      exact status.trans running

end Count

theorem length_trace (tape : Tape) (count : Nat) :
    ((start tape).trace count).length = ((start tape).run count).decodedCount := by
  induction count with
  | zero => rfl
  | succ count induction =>
      rw [trace_succ, List.length_append, induction, run_succ_step, decodedCount_step]

end Machine

namespace Recording

open Machine

def lines (recording : Recording) : List String :=
  recording.events.toList.map Event.text

theorem text_told (entries : List (Nat × Instruction)) (machine : Machine) :
    (entries.map (fun entry => Event.executing entry.1 entry.2) ++ machine.closing).map Event.text =
      entries.map (fun entry => traceLine entry.1 entry.2.text) ++ machine.closingLines := by
  simp only [List.map_append, List.map_map, text_closing, Function.comp_def,
    Event.text_executing]

/-- The call returns the result on the first recording and leaves the second one. A run
makes steps until one of them completes no instruction, and returns what that one does. -/
inductive Returns (recording : Recording) : Call → Except Fault Bool → Recording → Prop where
  | step : Returns recording .step recording.machine.advance.result recording.step
  | run {result : Except Fault Bool} {count : Nat}
      (completed : ∀ index < count, (recording.run index).machine.advance.result = .ok true)
      (last : (recording.run count).machine.advance.result = result)
      (stops : result ≠ .ok true) :
      Returns recording .run result (recording.run (count + 1))

/-- The second recording is left by calls that all return, one after the other, on the
first one. -/
inductive Later (first : Recording) : Recording → Prop where
  | now : Later first first
  | call {recording left : Recording} {call : Call} {result : Except Fault Bool}
      (later : Later first recording) (returns : Returns recording call result left) :
      Later first left

/-- Whatever is called on the recording from now on returns the outcome and changes
nothing. -/
structure Settled (recording : Recording) (outcome : Except Fault Bool) : Prop where
  returns : ∀ call, Returns recording call outcome recording
  unchanged : ∀ later, Later recording later → later = recording
  same : ∀ call result left, Returns recording call result left →
    result = outcome ∧ left = recording

section Halted

variable {recording : Recording}

theorem step_of_isHalted (halted : recording.machine.status.isHalted = true) :
    recording.step = recording := by
  obtain ⟨same, silent⟩ := advance_of_isHalted halted
  simp [step, same, silent]

theorem run_of_isHalted (halted : recording.machine.status.isHalted = true) (limit : Nat) :
    recording.run limit = recording := by
  cases limit with
  | zero => rfl
  | succ limit => simp [run, halted]

theorem run_succ (limit : Nat) (recording : Recording) :
    recording.run (limit + 1) = recording.step.run limit := by
  cases halted : recording.machine.status.isHalted with
  | false => simp [run, halted]
  | true => rw [run_of_isHalted halted, step_of_isHalted halted, run_of_isHalted halted]

theorem settled_of_isHalted {outcome : Except Fault Bool}
    (halted : recording.machine.status.isHalted = true)
    (answers : recording.machine.advance.result = outcome) (stops : outcome ≠ .ok true) :
    recording.Settled outcome := by
  have same : ∀ call result left, Returns recording call result left →
      result = outcome ∧ left = recording := by
    intro call result left returns
    cases returns with
    | step => exact ⟨answers, step_of_isHalted halted⟩
    | run completed last stops =>
        rw [run_of_isHalted halted] at last ⊢
        exact ⟨last.symm.trans answers, rfl⟩
  refine { returns := ?_, unchanged := ?_, same := same }
  · intro call
    cases call with
    | step =>
        have stepped : Returns recording .step _ recording.step := .step
        rwa [answers, step_of_isHalted halted] at stepped
    | run =>
        have ran : Returns recording .run outcome (recording.run 1) := .run nofun answers stops
        rwa [run_of_isHalted halted] at ran
  · intro later calls
    induction calls with
    | now => rfl
    | call calls returns induction =>
        subst induction
        exact (same _ _ _ returns).2

end Halted

/-- The recording is the one behind the first `count` steps on the tape, and its log tells
them. -/
structure Tells (tape : Tape) (count : Nat) (recording : Recording) : Prop where
  machine : recording.machine = (start tape).run count
  events : recording.events.toList =
    ((start tape).trace count).map (fun entry => .executing entry.1 entry.2) ++
      recording.machine.closing

section Tells

variable {tape : Tape} {count : Nat} {recording : Recording}

theorem tells_start (tape : Tape) : Tells tape 0 { machine := start tape } where
  machine := rfl
  events := rfl

theorem Tells.step (tells : Tells tape count recording) :
    Tells tape (count + 1) recording.step := by
  obtain ⟨machine, events⟩ := tells
  refine ⟨by rw [machine_step, machine, run_succ_step], ?_⟩
  rw [trace_succ, List.map_append, ← machine, List.append_assoc]
  cases halted : recording.machine.status.isHalted with
  | true =>
      rw [step_of_isHalted halted, events, decoding?_of_isHalted halted]
      rfl
  | false =>
      have running := Status.eq_running halted
      have silent : recording.machine.closing = [] := by rw [closing, running]
      rw [silent, List.append_nil] at events
      rw [events_step, machine_step, ← events_of_running running, ← events]
      simp

theorem Tells.run (tells : Tells tape count recording) (limit : Nat) :
    Tells tape (count + limit) (recording.run limit) := by
  induction limit generalizing count recording with
  | zero => exact tells
  | succ limit induction =>
      rw [run_succ, Nat.add_comm limit, ← Nat.add_assoc]
      exact induction tells.step

theorem exists_tells (later : Later { machine := start tape } recording) :
    ∃ count, Tells tape count recording := by
  induction later with
  | now => exact ⟨0, tells_start tape⟩
  | call later returns induction =>
      obtain ⟨count, tells⟩ := induction
      cases returns with
      | step => exact ⟨count + 1, tells.step⟩
      | run completed last stops => exact ⟨_, tells.run _⟩

end Tells

/-- The log traces the decoded instructions and then tells how the machine halted, if it did.
A halted machine only repeats its outcome. -/
theorem halting_logged_once {tape : Tape} {recording : Recording}
    (later : Later { machine := start tape } recording) :
    (∃ count,
      recording.machine = (start tape).run count ∧
      recording.lines =
        ((start tape).trace count).map (fun entry => traceLine entry.1 entry.2.text) ++
          recording.machine.closingLines ∧
      ((start tape).trace count).length =
        recording.machine.steps + if recording.machine.faultedAfterDecoding then 1 else 0) ∧
    (recording.machine.status = .finished → recording.Settled (.ok false)) ∧
    ∀ fault, recording.machine.status = .faulted fault → recording.Settled (.error fault) := by
  obtain ⟨count, machine, events⟩ := exists_tells later
  refine ⟨⟨count, machine, ?_, ?_⟩, ?_, ?_⟩
  · rw [lines, events, text_told]
  · rw [length_trace, machine]
    rfl
  · intro status
    exact settled_of_isHalted (by rw [status]; rfl) (by simp [advance, status]) nofun
  · intro fault status
    exact settled_of_isHalted (by rw [status]; rfl) (by simp [advance, status]) nofun

/-- A step pushes a byte, and a run halts at the second of two pops. -/
theorem halting_logged_once_underflow :
    let tape : Tape := { bytes := [0xfd, 0x07, 0xfc, 0xfc] }
    let recording := (step { machine := start tape }).run 2
    let traced := ["TRACE 0x0000  PUSH 0x07", "TRACE 0x0002  POP", "TRACE 0x0003  POP"]
    let warned := ["WARN halted: stack underflow at offset 3"]
    Later { machine := start tape } recording ∧ recording.lines = traced ++ warned ∧
      (∃ count,
        recording.machine = (start tape).run count ∧
        traced ++ warned =
          ((start tape).trace count).map (fun entry => traceLine entry.1 entry.2.text) ++ warned ∧
        ((start tape).trace count).length = 2 + 1) ∧
      recording.Settled (.error ⟨3, .stackUnderflow⟩) := by
  intro tape recording traced warned
  have ran : Returns (step { machine := start tape }) .run (.error ⟨3, .stackUnderflow⟩)
      recording := by
    refine .run (fun index before => ?_) rfl nofun
    obtain rfl : index = 0 := by omega
    rfl
  have later : Later { machine := start tape } recording := (Later.now.call .step).call ran
  have status : recording.machine.status = .faulted ⟨3, .stackUnderflow⟩ := by decide +kernel
  have counted : recording.machine.steps = 2 := by decide +kernel
  have decoded : recording.machine.faultedAfterDecoding = true := by decide +kernel
  have written : recording.lines = traced ++ warned := by decide +kernel
  have closed : recording.machine.closingLines = warned := by decide +kernel
  obtain ⟨⟨count, machine, lines, length⟩, -, settled⟩ := halting_logged_once later
  rw [written, closed] at lines
  rw [counted, decoded] at length
  exact ⟨later, written, ⟨count, machine, lines, length⟩, settled _ status⟩

end Recording

end ByteMachine
