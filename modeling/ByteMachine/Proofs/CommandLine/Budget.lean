import ByteMachine.CommandLine.Command
import ByteMachine.Proofs.Machine.Log
import ByteMachine.Proofs.Machine.Outcome

namespace ByteMachine

/-! A step budget cuts a run and never changes it. What a program does within the budget is
reported as if there were none. -/

def Event.isWarning : Event → Bool
  | executing _ _ | finished _ => false
  | halted _ => true

/-- The warnings in a log are those at its end. -/
theorem Recording.Tells.filter_isWarning {tape : Tape} {count : Nat} {recording : Recording}
    (tells : Tells tape count recording) :
    recording.events.toList.filter Event.isWarning =
      recording.machine.closing.filter Event.isWarning := by
  rw [tells.events, List.filter_append, List.filter_map]
  simp [Function.comp_def, Event.isWarning]

namespace CommandLine

open Machine

/-- The command exits with the report when it is called in the directory. -/
def Exits (directory : Directory) (arguments : List String) (report : Report) : Prop :=
  ∃ limit after, (session arguments).runIn limit directory = some (report, after)

/-- The report on a program that is over within a number of steps: as many instructions
lead to its end, or the last of as many instructions faults. -/
inductive Concludes (tape : Tape) : (steps : Nat) → Report → Prop where
  | ended {count : Nat} (ends : EndsAfter tape count) :
      Concludes tape count
        { code := .success
          stdout := Byte.texts ((start tape).run count).stack.contents ++ "\n" }
  | faulted {count : Nat} {fault : Fault} (faults : FaultsAfter tape count fault) :
      Concludes tape (count + 1)
        { code := .fault
          stderr := "runtime error: " ++ fault.message ++ "\n"
          log := [.halted fault] }

def exhaustedReport (machine : Machine) : Report where
  code := .exhausted
  stderr :=
    "error: step budget exhausted after " ++ toString machine.steps ++
      " instructions (next offset " ++ offsetText machine.tape.cursor ++ ")\n"

section Reports

variable {tape : Tape} {steps budget : Nat} {report : Report}

theorem Concludes.runReport_eq (concludes : Concludes tape steps report)
    (within : steps ≤ budget) (options : RunOptions) (quiet : options.dump = false) :
    runReport options ((start tape).run budget) = report := by
  cases concludes with
  | ended ends =>
      rcases Nat.lt_or_eq_of_le within with before | rfl
      · simp [runReport, ends.run_of_lt before, quiet]
      · -- The machine has not noticed that it is at the end.
        simp [runReport, ends.completed.running.1, ends.ended, quiet]
  | faulted faults => simp [runReport, faults.status_of_lt within, quiet]

/-- Both reports are that of a budget which is enough for either. -/
theorem Concludes.unique {otherSteps : Nat} {other : Report}
    (concludes : Concludes tape steps report) (again : Concludes tape otherSteps other) :
    report = other := by
  have first := concludes.runReport_eq (Nat.le_max_left steps otherSteps) {} rfl
  have second := again.runReport_eq (Nat.le_max_right steps otherSteps) {} rfl
  exact first.symm.trans second

theorem runReport_of_completes (completed : Completes tape budget)
    (more : ((start tape).run budget).tape.hasNext = true) (options : RunOptions)
    (quiet : options.dump = false) :
    runReport options ((start tape).run budget) =
      exhaustedReport ((start tape).run budget) := by
  simp [runReport, exhaustedReport, completed.running.1, more, quiet]

theorem runReport_cases (tape : Tape) (budget : Nat) (options : RunOptions)
    (quiet : options.dump = false) :
    (∃ steps ≤ budget,
      Concludes tape steps (runReport options ((start tape).run budget))) ∨
    (Completes tape budget ∧ runReport options ((start tape).run budget) =
      exhaustedReport ((start tape).run budget)) := by
  have concluded {steps : Nat} {report : Report} (concludes : Concludes tape steps report)
      (within : steps ≤ budget) : ∃ steps ≤ budget,
        Concludes tape steps (runReport options ((start tape).run budget)) :=
    ⟨steps, within, (concludes.runReport_eq within options quiet).symm ▸ concludes⟩
  rcases outcome_cases tape budget with
    ⟨count, before, ends⟩ | ⟨count, before, fault, faults⟩ | completed
  · exact .inl (concluded (.ended ends) (Nat.le_of_lt before))
  · exact .inl (concluded (.faulted faults) before)
  · cases more : ((start tape).run budget).tape.hasNext with
    | true => exact .inr ⟨completed, runReport_of_completes completed more options quiet⟩
    | false => exact .inl (concluded (.ended ⟨completed, more⟩) (Nat.le_refl budget))

/-- A run without a budget ends in just the reports that some budget allows for. -/
theorem exists_halted_iff (options : RunOptions) (quiet : options.dump = false) :
    (∃ limit, ((start tape).run limit).status.isHalted = true ∧
      runReport options ((start tape).run limit) = report) ↔
      ∃ steps, Concludes tape steps report := by
  constructor
  · rintro ⟨limit, halted, rfl⟩
    rcases runReport_cases tape limit options quiet with ⟨steps, -, concludes⟩ | ⟨completed, -⟩
    · exact ⟨steps, concludes⟩
    · simp [completed.not_isHalted] at halted
  · rintro ⟨steps, concludes⟩
    refine ⟨steps + 1, ?_, concludes.runReport_eq (Nat.le_succ steps) options quiet⟩
    cases concludes with
    | ended ends =>
        rw [ends.run_of_lt (Nat.lt_succ_self steps)]
        rfl
    | faulted faults =>
        rw [faults.status_of_lt (Nat.lt_succ_of_lt (Nat.lt_succ_self _))]
        rfl

end Reports

section Commands

variable {directory : Directory} {path text : String} {program : List Byte} {budget : Nat}
  {report : Report}

theorem exits_budget_iff (readable : directory.read path = .ok program)
    (counted : Text.numeral? 10 text.toList = some budget) :
    Exits directory ["run", path, "--max-steps", text] report ↔
      report = runReport { maxSteps := some budget }
        ((start { bytes := program }).run budget) := by
  simp [Exits, session, run, RunOptions.ofArguments, RunOptions.read, counted,
    Session.runIn, readable, runProgram, eq_comm]

theorem exits_iff (readable : directory.read path = .ok program) :
    Exits directory ["run", path] report ↔
      ∃ steps, Concludes { bytes := program } steps report := by
  rw [← exists_halted_iff {} rfl]
  simp [Exits, session, run, RunOptions.ofArguments, RunOptions.read,
    Session.runIn, readable, runProgram]

/-- What the report on a run with a budget says of the program. The report of success holds the
last stack from its bottom on, two hexadecimal digits for each byte, that of a fault its message,
and any other the count of instructions and the offset of the next one, in four hexadecimal
digits or as many as it needs. All of them have the warnings that the machine itself logs. -/
structure CutReport (tape : Tape) (budget : Nat) (report : Report) : Prop where
  success : report.code.toNat = 0 ↔ ∃ count ≤ budget, EndsAfter tape count
  stack : ∀ count ≤ budget, EndsAfter tape count →
    report.stdout =
      String.intercalate " " (((start tape).run count).stack.contents.map fun byte =>
        "0x" ++ String.ofList [(byte.toNat / 16).digitChar, (byte.toNat % 16).digitChar]) ++
        "\n" ∧
      report.stderr = "" ∧ report.log = []
  fault : report.code.toNat = 3 ↔ ∃ count < budget, ∃ fault, FaultsAfter tape count fault
  message : ∀ count < budget, ∀ fault, FaultsAfter tape count fault →
    report.stdout = "" ∧ report.stderr = "runtime error: " ++ fault.message ++ "\n" ∧
      report.log = [.halted fault]
  exhausted : report.code.toNat ≠ 0 → report.code.toNat ≠ 3 →
    report.code.toNat = 4 ∧ Completes tape budget ∧
      ((start tape).run budget).steps = budget ∧ report.stdout = "" ∧
      report.stderr =
        "error: step budget exhausted after " ++ toString budget ++
          " instructions (next offset 0x" ++ String.ofList
            ((Nat.toDigits 16 ((start tape).run budget).tape.cursor).leftpad 4 '0') ++ ")\n" ∧
      report.log = []
  warnings : report.log =
    (Recording.run budget { machine := start tape }).events.toList.filter Event.isWarning

theorem log_runReport (options : RunOptions) (machine : Machine) :
    (runReport options machine).log = machine.closing.filter Event.isWarning := by
  unfold runReport closing
  dsimp only
  cases machine.status with
  | faulted fault => rfl
  | finished => rfl
  | running => cases machine.tape.hasNext <;> rfl

theorem Concludes.cases_code {tape : Tape} {steps : Nat}
    (concludes : Concludes tape steps report) :
    (report.code.toNat = 0 ∧ EndsAfter tape steps) ∨
      (report.code.toNat = 3 ∧
        ∃ count fault, steps = count + 1 ∧ FaultsAfter tape count fault) := by
  cases concludes with
  | ended ends => exact .inl ⟨rfl, ends⟩
  | faulted faults => exact .inr ⟨rfl, _, _, rfl, faults⟩

theorem cutReport_runReport (tape : Tape) (budget : Nat) (options : RunOptions)
    (quiet : options.dump = false) :
    CutReport tape budget (runReport options ((start tape).run budget)) where
  success := by
    constructor
    · intro code
      rcases runReport_cases tape budget options quiet with
        ⟨steps, within, concludes⟩ | ⟨-, exhausted⟩
      · rcases concludes.cases_code with ⟨-, ends⟩ | ⟨other, -⟩
        · exact ⟨steps, within, ends⟩
        · simp [code] at other
      · simp [exhausted, exhaustedReport, ExitCode.exhausted] at code
    · rintro ⟨count, within, ends⟩
      rw [(Concludes.ended ends).runReport_eq within options quiet]
      rfl
  stack := by
    intro count within ends
    rw [(Concludes.ended ends).runReport_eq within options quiet]
    exact ⟨rfl, rfl, rfl⟩
  fault := by
    constructor
    · intro code
      rcases runReport_cases tape budget options quiet with
        ⟨steps, within, concludes⟩ | ⟨-, exhausted⟩
      · rcases concludes.cases_code with ⟨other, -⟩ | ⟨-, count, fault, rfl, faults⟩
        · simp [code] at other
        · exact ⟨count, within, fault, faults⟩
      · simp [exhausted, exhaustedReport, ExitCode.exhausted] at code
    · rintro ⟨count, before, fault, faults⟩
      rw [(Concludes.faulted faults).runReport_eq before options quiet]
      rfl
  message := by
    intro count before fault faults
    rw [(Concludes.faulted faults).runReport_eq before options quiet]
    exact ⟨rfl, rfl, rfl⟩
  exhausted := by
    intro noSuccess noFault
    rcases runReport_cases tape budget options quiet with
      ⟨steps, within, concludes⟩ | ⟨completed, exhausted⟩
    · rcases concludes.cases_code with ⟨code, -⟩ | ⟨code, -⟩
      · exact absurd code noSuccess
      · exact absurd code noFault
    · have counted := completed.running.2
      rw [exhausted, exhaustedReport, counted]
      refine ⟨rfl, completed, rfl, rfl, ?_, rfl⟩
      have marked : " instructions (next offset " ++ "0x" = " instructions (next offset 0x" := by
        decide
      simp only [offsetText, ← marked, String.append_assoc]
  warnings := by
    have tells := (Recording.tells_start tape).run budget
    rw [log_runReport, tells.filter_isWarning, Recording.machine_run]

/-- A run with a budget exits with one report, which tells how the program ended or that
the budget was spent. If the program ended, a run without a budget and one with a larger
budget exit with the same report, and only with that one: the same code, texts and warnings.
Without a budget, none is ever spent. What is logged below the level of a warning is not
compared: a machine that is stopped at the end of the program does not log that it finished. -/
theorem run_budget_cuts (readable : directory.read path = .ok program)
    (counted : Text.numeral? 10 text.toList = some budget) :
    ∃ report : Report,
      (∀ other, Exits directory ["run", path, "--max-steps", text] other ↔
        other = report) ∧
      CutReport { bytes := program } budget report ∧
      (report.code.toNat = 0 ∨ report.code.toNat = 3 →
        (∀ other, Exits directory ["run", path] other ↔ other = report) ∧
        ∀ largerText larger, Text.numeral? 10 largerText.toList = some larger →
          budget ≤ larger →
          ∀ other, Exits directory ["run", path, "--max-steps", largerText] other ↔
            other = report) ∧
      ∀ other, Exits directory ["run", path] other → other.code.toNat ≠ 4 := by
  refine ⟨_, fun other => exits_budget_iff readable counted,
    cutReport_runReport _ budget _ rfl, ?_, ?_⟩
  · intro exited
    obtain ⟨steps, within, concludes⟩ | ⟨-, exhausted⟩ :=
      runReport_cases { bytes := program } budget { maxSteps := some budget } rfl
    · refine ⟨fun other => ?_, fun largerText larger largerCounted more other => ?_⟩
      · rw [exits_iff readable]
        constructor
        · rintro ⟨otherSteps, again⟩
          exact again.unique concludes
        · rintro rfl
          exact ⟨steps, concludes⟩
      · rw [exits_budget_iff readable largerCounted,
          concludes.runReport_eq (Nat.le_trans within more) _ rfl]
    · simp [exhausted, exhaustedReport, ExitCode.exhausted] at exited
  · intro other exits
    obtain ⟨steps, concludes⟩ := (exits_iff readable).mp exits
    rcases concludes.cases_code with ⟨code, -⟩ | ⟨code, -⟩
    · simp [code]
    · simp [code]

/-- A sum on top of its first summand, with the budget to reach the end and with one step less,
and a push, a pop and a division by zero, with the budget to reach the fault. -/
theorem run_budget_cuts_just_enough :
    let sum : List Byte := [0xfd, 0x0a, 0xa0, 0xb0, 0xf3]
    let division : List Byte := [0xfd, 0x07, 0xfc, 0xa3, 0x01, 0x00]
    let directory := Directory.ofFiles [("s.luxb", .file sum), ("d.luxb", .file division)]
    (directory.read "s.luxb" = .ok sum ∧ directory.read "d.luxb" = .ok division ∧
      Text.numeral? 10 "1".toList = some 1 ∧ Text.numeral? 10 "2".toList = some 2 ∧
      Text.numeral? 10 "3".toList = some 3) ∧
    (EndsAfter { bytes := sum } 2 ∧
      ∃ report : Report, report.code.toNat = 0 ∧ report.stdout = "0x0a 0xfd\n" ∧
        report.stderr = "" ∧ report.log = [] ∧
        ∀ other, Exits directory ["run", "s.luxb"] other ↔ other = report) ∧
    (Completes { bytes := sum } 1 ∧
      ∃ report : Report, report.code.toNat = 4 ∧ report.stdout = "" ∧
        report.stderr =
          "error: step budget exhausted after 1 instructions (next offset 0x0002)\n" ∧
        ∀ other, Exits directory ["run", "s.luxb", "--max-steps", "1"] other ↔ other = report) ∧
    FaultsAfter { bytes := division } 2 ⟨3, .divisionByZero⟩ ∧
      ∃ report : Report, report.code.toNat = 3 ∧ report.stdout = "" ∧
        report.stderr = "runtime error: division by zero at offset 3\n" ∧
        report.log.map Event.text = ["WARN halted: division by zero at offset 3"] ∧
        ∀ other, Exits directory ["run", "d.luxb"] other ↔ other = report := by
  intro sum division directory
  have sumRead : directory.read "s.luxb" = .ok sum := by rfl
  have divisionRead : directory.read "d.luxb" = .ok division := by rfl
  have one : Text.numeral? 10 "1".toList = some 1 := by rfl
  have two : Text.numeral? 10 "2".toList = some 2 := by rfl
  have three : Text.numeral? 10 "3".toList = some 3 := by rfl
  have ends : EndsAfter { bytes := sum } 2 := by
    refine ⟨fun index before => ?_, by decide +kernel⟩
    obtain rfl | rfl : index = 0 ∨ index = 1 := by omega
    all_goals exact answer_toOption_eq_some.mp (by decide +kernel)
  have faults : FaultsAfter { bytes := division } 2 ⟨3, .divisionByZero⟩ := by
    refine ⟨fun index before => ?_, by rfl⟩
    obtain rfl | rfl : index = 0 ∨ index = 1 := by omega
    all_goals rfl
  refine ⟨⟨sumRead, divisionRead, one, two, three⟩, ⟨ends, ?_⟩,
    ⟨ends.completed.mono (by decide), ?_⟩, faults, ?_⟩
  · obtain ⟨report, -, cut, cutsOnly, -⟩ := run_budget_cuts sumRead two
    have code : report.code.toNat = 0 := cut.success.mpr ⟨2, by decide, ends⟩
    obtain ⟨printed, silent, unwarned⟩ := cut.stack 2 (by decide) ends
    exact ⟨report, code, printed.trans (by decide +kernel), silent, unwarned,
      (cutsOnly (.inl code)).1⟩
  · obtain ⟨report, exits, cut, -, -⟩ := run_budget_cuts sumRead one
    have spent : report.code.toNat = 4 := by
      rw [← (exits _).mp ((exits_budget_iff sumRead one).mpr rfl)]
      decide +kernel
    obtain ⟨-, -, -, silent, message, -⟩ := cut.exhausted (by simp [spent]) (by simp [spent])
    exact ⟨report, spent, silent, message.trans (by decide +kernel), exits⟩
  · obtain ⟨report, -, cut, cutsOnly, -⟩ := run_budget_cuts divisionRead three
    have code : report.code.toNat = 3 := cut.fault.mpr ⟨2, by decide, _, faults⟩
    obtain ⟨silent, message, warned⟩ := cut.message 2 (by decide) _ faults
    refine ⟨report, code, silent, message, ?_, (cutsOnly (.inr code)).1⟩
    rw [warned]
    rfl

end Commands

end CommandLine

end ByteMachine
