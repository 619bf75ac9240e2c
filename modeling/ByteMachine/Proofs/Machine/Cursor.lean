import ByteMachine.Proofs.Machine.Store
import ByteMachine.Proofs.Operation

namespace ByteMachine

/-! Where the cursor is. An instruction asks all that it asks of the machine whose cursor is
behind it, and moves the cursor only as a jump that is taken. -/

/-- What an instruction asks a machine for, with the operand that names it. -/
inductive Question where
  | byte (operand : Operand)
  | source (operand : Operand)
  | destination (operand : Operand)
  | target (operand : Operand)

namespace Instruction

/-- The questions of an instruction, in the order in which it asks them. -/
def questions : Instruction → List Question
  | move destination source => [.destination destination, .source source]
  | load destination _ => [.destination destination]
  | jump target => [.target target]
  | push source => [.byte source]
  | pop => []
  | arithmetic _ left right => [.byte left, .byte right]
  | compare _ left right => [.byte left, .byte right]
  | branch _ left right target => [.byte left, .byte right, .target target]
  | bitwise _ destination source => [.destination destination, .byte source]
  | invert destination => [.destination destination]

def target? : Instruction → Option Operand
  | jump target => some target
  | branch _ _ _ target => some target
  | _ => none

end Instruction

def Question.operand : Question → Operand
  | byte operand | source operand | destination operand | target operand => operand

/-- Each operand is asked for once, in the order in which they are written. -/
theorem Instruction.map_operand_questions (instruction : Instruction) :
    instruction.questions.map Question.operand = instruction.operands := by
  cases instruction <;> rfl

/-- The operand that is followed as an address to answer the question. -/
def Question.followed? : Question → Option Operand
  | byte operand | source operand => some ((operand.cell?.map Prod.snd).getD operand)
  | destination .insPtr => none
  | destination operand => some ((operand.cell?.map Prod.snd).getD operand)
  | target _ => none

namespace Machine

open Operand (Pointers)

variable {machine left : Machine} {instruction : Instruction} {operand : Operand}
  {question : Question} {cause : Fault.Cause}

/-- Whether the machine has an answer to the question, or why it has none. -/
def reply (machine : Machine) : Question → Except Fault.Cause Unit
  | .byte operand => (machine.byte operand).map fun _ => ()
  | .source operand => (machine.moveSource operand).map fun _ => ()
  | .destination operand => (machine.destination operand).map fun _ => ()
  | .target operand => (machine.jumpTarget operand).map fun _ => ()

section Question

variable {α β : Type}

theorem ask_bind_of_denied {asked : Machine → Except Fault.Cause α} {after : α → Action β}
    {later : List Question} (denied : (question :: later).forM machine.reply = .error cause)
    (replies : machine.reply question = (asked machine).map fun _ => ())
    (behind : ∀ answer, later.forM machine.reply = .error cause →
      after answer machine = .error cause machine) :
    (ask asked >>= after) machine = .error cause machine := by
  change (machine.reply question >>= fun _ => later.forM machine.reply) = _ at denied
  rw [replies] at denied
  rcases answer_bind_eq_error denied with first | ⟨done, answered, denied⟩
  · exact ask_bind_of_error (answer_map_eq_error first)
  · obtain ⟨answer, found, -⟩ := answer_map_eq_ok.mp answered
    exact (ask_bind_of_ok found).trans (behind answer denied)

/-- An instruction changes nothing before it has asked all its questions. -/
theorem execute_of_denied (denied : instruction.questions.forM machine.reply = .error cause) :
    execute instruction machine = .error cause machine := by
  cases instruction with
  | move destination source =>
      refine ask_bind_of_denied denied rfl fun cell denied => ?_
      exact ask_bind_of_denied denied rfl fun value => nofun
  | load destination value => exact ask_bind_of_denied denied rfl fun cell => nofun
  | jump target => exact ask_bind_of_denied denied rfl fun offset => nofun
  | push source => exact ask_bind_of_denied denied rfl fun byte => nofun
  | pop => cases denied
  | arithmetic op left right =>
      refine ask_bind_of_denied denied rfl fun first denied => ?_
      exact ask_bind_of_denied denied rfl fun second => nofun
  | compare condition left right =>
      refine ask_bind_of_denied denied rfl fun first denied => ?_
      exact ask_bind_of_denied denied rfl fun second => nofun
  | branch condition left right target =>
      refine ask_bind_of_denied denied rfl fun first denied => ?_
      refine ask_bind_of_denied denied rfl fun second denied => ?_
      exact ask_bind_of_denied denied rfl fun offset => nofun
  | bitwise op destination source =>
      refine ask_bind_of_denied denied rfl fun cell denied => ?_
      exact ask_bind_of_denied denied rfl fun byte => nofun
  | invert destination => exact ask_bind_of_denied denied rfl fun cell => nofun

theorem forM_reply_of_denied {before after : List Question}
    (answered : ∀ earlier ∈ before, machine.reply earlier = .ok ())
    (denied : machine.reply question = .error cause) :
    (before ++ question :: after).forM machine.reply = .error cause := by
  induction before with
  | nil =>
      change (machine.reply question >>= fun _ => _) = _
      rw [denied]
      rfl
  | cons first before induction =>
      obtain ⟨here, others⟩ := List.forall_mem_cons.mp answered
      change (machine.reply first >>= fun _ => (before ++ question :: after).forM _) = _
      rw [here]
      exact induction others

theorem value_of_cell_unresolved {inner : Operand} {width : Width}
    (cell : operand.cell? = some (width, inner))
    (unresolved : machine.address inner = .error cause) :
    machine.value operand = .error cause := by
  rw [value_of_cell cell, unresolved]
  rfl

/-- A value cannot be told where the operand that is followed to it is no address. -/
theorem value_of_unresolved
    (unresolved : machine.address ((operand.cell?.map Prod.snd).getD operand) = .error cause) :
    machine.value operand = .error cause ∧ machine.moveSource operand = .error cause := by
  cases operand with
  | literal byte => cases unresolved
  | top => cases unresolved
  | insPtr =>
      have failed : machine.value .insPtr = .error cause := by
        rw [value, show machine.insPtr = .error cause from unresolved]
        rfl
      exact ⟨failed, failed⟩
  | ref width inner =>
      have failed : machine.value (.ref width inner) = .error cause :=
        value_of_cell_unresolved rfl (show machine.address inner = _ from unresolved)
      exact ⟨failed, failed⟩
  | sized width inner =>
      have failed : machine.value (.sized width inner) = .error cause :=
        value_of_cell_unresolved rfl (show machine.address inner = _ from unresolved)
      exact ⟨failed, failed⟩

theorem reply_of_followed (followed : question.followed? = some operand)
    (unresolved : machine.address operand = .error cause) :
    machine.reply question = .error cause := by
  cases question with
  | byte named =>
      cases followed
      rw [reply, byte, (value_of_unresolved unresolved).1]
      rfl
  | source named =>
      cases followed
      rw [reply, (value_of_unresolved unresolved).2]
      rfl
  | destination named =>
      cases named with
      | literal byte => cases followed; cases unresolved
      | top => cases followed; cases unresolved
      | insPtr => cases followed
      | ref width inner =>
          cases followed
          rw [reply, destination, show machine.address inner = .error cause from unresolved]
          rfl
      | sized width inner =>
          cases followed
          rw [reply, destination, show machine.address inner = .error cause from unresolved]
          rfl
  | target named => cases followed

/-- The instruction comes to follow the operand as an address: the machine has an answer to
all that is asked before. -/
inductive Follows (machine : Machine) (instruction : Instruction) (operand : Operand) :
    Prop where
  | question {before after : List Question} {question : Question}
      (asked : instruction.questions = before ++ question :: after)
      (answered : ∀ earlier ∈ before, machine.reply earlier = .ok ())
      (followed : question.followed? = some operand) : Follows machine instruction operand

theorem Follows.execute_eq_error (follows : machine.Follows instruction operand)
    (unresolved : machine.address operand = .error cause) :
    execute instruction machine = .error cause machine := by
  obtain ⟨asked, answered, followed⟩ := follows
  apply execute_of_denied
  rw [asked]
  exact forM_reply_of_denied answered (reply_of_followed followed unresolved)

end Question

section Jump

/-- The offset that an operand names as the target of a jump. -/
inductive NamesOffset (machine : Machine) : Operand → Byte → Prop where
  | literal (byte : Byte) : NamesOffset machine (.literal byte) byte
  | top : NamesOffset machine .top machine.stack.top

theorem jumpTarget_eq_ok_iff {target : Nat} :
    machine.jumpTarget operand = .ok target ↔
      ∃ offset, machine.NamesOffset operand offset ∧ target = offset.toNat := by
  constructor
  · intro resolved
    cases operand with
    | literal byte =>
        cases resolved
        exact ⟨byte, .literal byte, rfl⟩
    | top =>
        cases resolved
        exact ⟨_, .top, rfl⟩
    | _ => cases resolved
  · rintro ⟨offset, named, rfl⟩
    cases named <;> rfl

/-- The instruction is a jump, and its condition holds if it has one. -/
def Departs (machine : Machine) : Instruction → Prop
  | .jump _ => True
  | .branch condition left right _ =>
      ∃ first second, machine.byte left = .ok first ∧ machine.byte right = .ok second ∧
        condition.Relates first.toNat second.toNat
  | _ => False

structure GoesTo (machine : Machine) (instruction : Instruction) (offset : Byte) : Prop where
  departs : machine.Departs instruction
  named : ∃ target, instruction.target? = some target ∧ machine.NamesOffset target offset

theorem Executes.tape_of_stays (executes : Executes machine instruction left)
    (stays : ¬ machine.Departs instruction) : left.tape = machine.tape := by
  cases executes with
  | jump resolved within => exact absurd trivial stays
  | branchTaken leftNamed rightNamed resolved holds within =>
      exact absurd ⟨_, _, leftNamed, rightNamed, Condition.holds_iff.mp holds⟩ stays
  | _ => rfl

theorem Executes.goesTo (executes : Executes machine instruction left)
    (departs : machine.Departs instruction) :
    ∃ offset, machine.GoesTo instruction offset ∧ left.tape.cursor = offset.toNat ∧
      offset.toNat ≤ machine.tape.bytes.length := by
  cases executes with
  | jump resolved within =>
      obtain ⟨offset, named, rfl⟩ := jumpTarget_eq_ok_iff.mp resolved
      exact ⟨offset, ⟨departs, _, rfl, named⟩, rfl, within⟩
  | branchTaken leftNamed rightNamed resolved holds within =>
      obtain ⟨offset, named, rfl⟩ := jumpTarget_eq_ok_iff.mp resolved
      exact ⟨offset, ⟨departs, _, rfl, named⟩, rfl, within⟩
  | branchPassed leftNamed rightNamed resolved fails =>
      obtain ⟨first, second, leftRead, rightRead, relates⟩ := departs
      rw [leftNamed] at leftRead
      rw [rightNamed] at rightRead
      cases leftRead
      cases rightRead
      simp [Condition.holds_iff.mpr relates] at fails
  | _ => cases departs

variable {condition : Condition} {first second target : Operand}

theorem executes_branch_of_stays {before behind : Byte}
    (firstNamed : machine.byte first = .ok before)
    (secondNamed : machine.byte second = .ok behind)
    (unrelated : ¬ condition.Relates before.toNat behind.toNat) {offset : Byte}
    (named : machine.NamesOffset target offset) :
    Executes machine (.branch condition first second target) machine :=
  .branchPassed firstNamed secondNamed (jumpTarget_eq_ok_iff.mpr ⟨offset, named, rfl⟩)
    (Bool.eq_false_iff.mpr fun holds => unrelated (Condition.holds_iff.mp holds))

theorem namesOffset_of_executes
    (executes : Executes machine (.branch condition first second target) left) :
    ∃ offset, machine.NamesOffset target offset := by
  cases executes with
  | branchTaken leftNamed rightNamed resolved holds within =>
      obtain ⟨offset, named, -⟩ := jumpTarget_eq_ok_iff.mp resolved
      exact ⟨offset, named⟩
  | branchPassed leftNamed rightNamed resolved fails =>
      obtain ⟨offset, named, -⟩ := jumpTarget_eq_ok_iff.mp resolved
      exact ⟨offset, named⟩

/-- Only a branch that is taken can go too far. -/
theorem departs_of_jumpOutOfRange {offset : Nat}
    (failed : execute (.branch condition first second target) machine =
      .error (.jumpOutOfRange offset) left) :
    machine.Departs (.branch condition first second target) := by
  rcases ask_bind_eq_error failed with unresolved | ⟨before, firstNamed, failed⟩
  · nomatch byte_eq_error unresolved
  rcases ask_bind_eq_error failed with unresolved | ⟨behind, secondNamed, failed⟩
  · nomatch byte_eq_error unresolved
  rcases ask_bind_eq_error failed with unresolved | ⟨reached, -, failed⟩
  · nomatch jumpTarget_eq_error unresolved
  split at failed
  · rename_i holds
    exact ⟨before, behind, firstNamed, secondNamed, Condition.holds_iff.mp holds⟩
  · cases failed

end Jump

section Step

variable (running : machine.status = .running)
  (decoded : machine.tape.decode.1 = .ok instruction)

include decoded

theorem fetched_tape :
    machine.fetched.tape =
      { machine.tape with cursor := machine.tape.cursor + instruction.encode.length } := by
  obtain ⟨-, -, moved⟩ := Tape.decode_eq_ok_iff.mp (decode_eq_of_fst decoded)
  exact moved

theorem goesTo_of_completed (completed : machine.advance.result = .ok true)
    (departs : machine.fetched.Departs instruction) :
    ∃ offset, machine.fetched.GoesTo instruction offset ∧
      machine.step.tape.cursor = offset.toNat ∧
      offset.toNat ≤ machine.tape.bytes.length := by
  obtain ⟨left, executes, stepped⟩ := executes_of_completed decoded completed
  obtain ⟨offset, goes, moved, within⟩ := executes.goesTo departs
  rw [fetched_tape decoded] at within
  exact ⟨offset, goes, by rw [stepped]; exact moved, within⟩

theorem cursor_of_completed (completed : machine.advance.result = .ok true)
    (stays : ¬ machine.fetched.Departs instruction) :
    machine.step.tape.cursor = machine.tape.cursor + instruction.encode.length := by
  obtain ⟨left, executes, stepped⟩ := executes_of_completed decoded completed
  rw [stepped]
  change left.tape.cursor = _
  rw [executes.tape_of_stays stays, fetched_tape decoded]

theorem insPtr_of_fetched {byte : Byte}
    (same : byte.toNat = machine.tape.cursor + instruction.encode.length) :
    machine.fetched.insPtr = .ok byte := by
  rw [insPtr_eq_ok_iff, fetched_tape decoded]
  exact same

include running

theorem completed_or_faulted :
    machine.advance.result = .ok true ∨
      ∃ cause, execute instruction machine.fetched = .error cause machine.fetched ∧
        machine.advance.result = .error ⟨machine.tape.cursor, cause⟩ := by
  cases executed : execute instruction machine.fetched with
  | ok done left =>
      exact .inl (completed_of_executes running decoded (execute_eq_ok_iff.mp executed))
  | error cause left =>
      obtain rfl := atomic_execute instruction _ cause left executed
      exact .inr ⟨cause, rfl, faulted_of_execute running decoded executed⟩

theorem execute_of_faulted {offset : Nat}
    (faulted : machine.advance.result = .error ⟨offset, cause⟩) :
    execute instruction machine.fetched = .error cause machine.fetched := by
  rcases completed_or_faulted running decoded with completed | ⟨named, failed, result⟩
  · rw [completed] at faulted
    cases faulted
  · rw [result] at faulted
    cases faulted
    exact failed

theorem tape_of_faulted {fault : Fault} (faulted : machine.advance.result = .error fault) :
    machine.step.tape = machine.fetched.tape := by
  obtain ⟨left, stepped, steps⟩ := exists_steps faulted
  rw [stepped]
  cases steps with
  | faulted status => simp [running] at status
  | misreads running more misread => simp [misread] at decoded
  | fails running more found failed => simp [fetched, found]

theorem cursor_of_stays
    (stays : ¬ (machine.advance.result = .ok true ∧ machine.fetched.Departs instruction)) :
    machine.step.tape.cursor = machine.tape.cursor + instruction.encode.length := by
  rcases completed_or_faulted running decoded with completed | ⟨cause, -, faulted⟩
  · exact cursor_of_completed decoded completed fun departs => stays ⟨completed, departs⟩
  · rw [tape_of_faulted running decoded faulted, fetched_tape decoded]

theorem overflow_of_faulted {offset number : Nat}
    (faulted : machine.advance.result = .error ⟨offset, .insPtrOverflow number⟩) :
    number = machine.tape.cursor + instruction.encode.length ∧ 255 < number := by
  have cursor := congrArg Tape.cursor (fetched_tape decoded)
  cases execute_eq_error (execute_of_faulted running decoded faulted) with
  | operand member unresolved =>
      cases unresolved with
      | insPtr large => exact ⟨cursor, large⟩

theorem overflow_iff_of_follows {count : Nat}
    (follows : machine.fetched.Follows instruction operand)
    (pointers : Pointers count operand .insPtr) :
    machine.advance.result = .error ⟨machine.tape.cursor,
        .insPtrOverflow (machine.tape.cursor + instruction.encode.length)⟩ ↔
      255 < machine.tape.cursor + instruction.encode.length := by
  have cursor := congrArg Tape.cursor (fetched_tape decoded)
  constructor
  · intro faulted
    exact (overflow_of_faulted running decoded faulted).2
  · intro large
    have overflows : machine.fetched.insPtr =
        .error (.insPtrOverflow (machine.tape.cursor + instruction.encode.length)) :=
      insPtr_eq_error_iff.mpr ⟨cursor ▸ large, by rw [cursor]⟩
    apply faulted_of_execute running decoded
    apply follows.execute_eq_error
    rw [address_of_pointers pointers, address, overflows]
    rfl

end Step

/-- The instruction pointer is the offset behind the instruction, in every operand that is
followed to it. The cursor is there after the step, unless a jump was taken. -/
theorem cursor_behind_unless_jump (running : machine.status = .running)
    (decoded : machine.tape.decode.1 = .ok instruction) :
    let behind := machine.tape.cursor + instruction.encode.length
    instruction.questions.map Question.operand = instruction.operands ∧
    (∀ byte : Byte, byte.toNat = behind →
      machine.fetched.byte .insPtr = .ok byte ∧
        machine.fetched.moveSource .insPtr = .ok (.ofByte byte)) ∧
    (∀ operand count, machine.fetched.Follows instruction operand →
      Pointers count operand .insPtr →
      (∀ byte : Byte, byte.toNat = behind →
        machine.fetched.address operand = .ok (machine.memory.byteAt^[count] byte)) ∧
      (machine.advance.result = .error ⟨machine.tape.cursor, .insPtrOverflow behind⟩ ↔
        255 < behind)) ∧
    (∀ offset number, machine.advance.result = .error ⟨offset, .insPtrOverflow number⟩ →
      number = behind ∧ 255 < number) ∧
    (machine.advance.result = .ok true → machine.fetched.Departs instruction →
      ∃ offset, machine.fetched.GoesTo instruction offset ∧
        machine.step.tape.cursor = offset.toNat ∧ offset.toNat ≤ 255 ∧
        offset.toNat ≤ machine.tape.bytes.length) ∧
    (¬ (machine.advance.result = .ok true ∧ machine.fetched.Departs instruction) →
      machine.step.tape.cursor = behind) ∧
    ∀ condition first second target, instruction = .branch condition first second target →
      (¬ machine.fetched.Departs instruction →
        ∀ offset far, machine.advance.result ≠ .error ⟨offset, .jumpOutOfRange far⟩) ∧
      (∀ left right, machine.fetched.byte first = .ok left →
        machine.fetched.byte second = .ok right →
        ¬ condition.Relates left.toNat right.toNat →
        (machine.advance.result = .ok true ↔
          ∃ offset, machine.fetched.NamesOffset target offset)) ∧
      ((¬ ∃ offset, machine.fetched.NamesOffset target offset) →
        ∃ cause, machine.advance.result = .error ⟨machine.tape.cursor, cause⟩) := by
  intro behind
  refine ⟨instruction.map_operand_questions, ?_, ?_, ?_, ?_, cursor_of_stays running decoded, ?_⟩
  · intro byte same
    have value : machine.fetched.value .insPtr = .ok (.ofByte byte) := by
      rw [Machine.value, insPtr_of_fetched decoded same]
      rfl
    refine ⟨?_, value⟩
    rw [Machine.byte, value]
    rfl
  · intro operand count follows pointers
    refine ⟨?_, overflow_iff_of_follows running decoded follows pointers⟩
    intro byte same
    rw [address_of_pointers pointers, address, insPtr_of_fetched decoded same]
    rfl
  · intro offset number faulted
    exact overflow_of_faulted running decoded faulted
  · intro completed departs
    obtain ⟨offset, goes, moved, within⟩ := goesTo_of_completed decoded completed departs
    exact ⟨offset, goes, moved, Nat.le_of_lt_succ offset.toNat_lt, within⟩
  · rintro condition first second target rfl
    have named (completed : machine.advance.result = .ok true) :
        ∃ offset, machine.fetched.NamesOffset target offset := by
      obtain ⟨left, executes, -⟩ := executes_of_completed decoded completed
      exact namesOffset_of_executes executes
    refine ⟨?_, ?_, ?_⟩
    · intro stays offset far faulted
      exact stays (departs_of_jumpOutOfRange (execute_of_faulted running decoded faulted))
    · intro left right firstNamed secondNamed unrelated
      refine ⟨named, ?_⟩
      rintro ⟨offset, names⟩
      exact completed_of_executes running decoded
        (executes_branch_of_stays firstNamed secondNamed unrelated names)
    · intro nowhere
      rcases completed_or_faulted running decoded with completed | ⟨cause, -, faulted⟩
      · exact absurd (named completed) nowhere
      · exact ⟨cause, faulted⟩

/-- A branch compares the offset behind itself. It is not taken, so its target may be outside
the program. -/
theorem cursor_behind_unless_jump_passed :
    let machine := start { bytes := [0xd2, 0xc1, 0x04, 0x80] }
    machine.status = .running ∧
      machine.tape.decode.1 = .ok (.branch .lt .insPtr (.literal 4) (.literal 0x80)) ∧
      machine.fetched.byte .insPtr = .ok 4 ∧ machine.advance.result = .ok true ∧
      machine.step.tape.cursor = 4 := by
  intro machine
  have decoded : machine.tape.decode.1 =
      .ok (.branch .lt .insPtr (.literal 4) (.literal 0x80)) := by rfl
  obtain ⟨-, reads, -, -, -, stays, branches⟩ := cursor_behind_unless_jump rfl decoded
  have behind : machine.fetched.byte .insPtr = .ok 4 := (reads 4 rfl).1
  have completed : machine.advance.result = .ok true :=
    ((branches _ _ _ _ rfl).2.1 4 4 behind rfl (by decide)).mpr ⟨0x80, .literal 0x80⟩
  refine ⟨rfl, decoded, behind, completed, stays ?_⟩
  rintro ⟨-, first, second, firstNamed, secondNamed, less⟩
  rw [behind] at firstNamed
  cases firstNamed
  cases secondNamed
  exact absurd less (by decide)

end Machine

end ByteMachine
