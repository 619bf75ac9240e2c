import ByteMachine.Machine.Step
import ByteMachine.Proofs.Memory
import ByteMachine.Proofs.Stack

namespace ByteMachine.Machine

/-! Faults leave no trace. Every instruction asks for all that it needs before it
changes anything, and changes something only once, in an action that fails before
it changes anything or not at all. -/

/-- The action leaves every machine as it is, whether it fails or not. -/
def Unchanging {α : Type} (action : Action α) : Prop :=
  ∀ machine, (∃ result, action machine = .ok result machine) ∨
    ∃ cause, action machine = .error cause machine

/-- The action leaves a machine as it is when it fails. -/
def Atomic {α : Type} (action : Action α) : Prop :=
  ∀ machine cause left, action machine = .error cause left → left = machine

variable {α β : Type}

theorem unchanging_ask (question : Machine → Except Fault.Cause α) :
    Unchanging (ask question) := by
  intro machine
  unfold ask
  cases question machine with
  | ok answer => exact .inl ⟨answer, rfl⟩
  | error cause => exact .inr ⟨cause, rfl⟩

theorem Atomic.throw (cause : Fault.Cause) : Atomic (throw cause : Action α) := by
  intro machine other left failed
  cases failed
  rfl

theorem Atomic.pure (result : α) : Atomic (pure result : Action α) := by
  intro machine cause left failed
  cases failed

/-- What fails behind an action that changes nothing fails at the first machine. -/
theorem Unchanging.bind {first : Action α} {after : α → Action β}
    (unchanging : Unchanging first) (atomic : ∀ result, Atomic (after result)) :
    Atomic (first >>= after) := by
  intro machine cause left failed
  change EStateM.bind first after machine = _ at failed
  unfold EStateM.bind at failed
  rcases unchanging machine with ⟨result, done⟩ | ⟨other, done⟩
  · rw [done] at failed
    exact atomic result machine cause left failed
  · rw [done] at failed
    cases failed
    rfl

section Fail

variable {machine left : Machine} {cause : Fault.Cause}

theorem discard_eq_error {action : Action α} :
    discard action machine = .error cause left ↔ action machine = .error cause left := by
  change EStateM.map (fun _ => ()) action machine = _ ↔ _
  unfold EStateM.map
  cases action machine with
  | ok result after => simp
  | error other after => simp

theorem onPart_eq_error {σ : Type} {part : Machine → σ} {replace : Machine → σ → Machine}
    {call : EStateM AccessError σ α} :
    onPart part replace call machine = .error cause left ↔
      ∃ error state, call (part machine) = .error error state ∧
        cause = .ofAccessError error ∧ left = replace machine state := by
  unfold onPart
  cases call (part machine) with
  | ok result state => simp
  | error error state =>
      constructor
      · rintro ⟨⟩
        exact ⟨error, state, rfl, rfl, rfl⟩
      · rintro ⟨_, _, ⟨⟩, rfl, rfl⟩
        rfl

theorem store_eq_error {address : Byte} {value : Value} :
    store address value machine = .error cause left ↔
      Memory.size < address.toNat + value.width.size ∧
        cause = .memoryOutOfRange address value.width ∧ left = machine := by
  simp only [store, onMemory, onPart_eq_error, Memory.Action.write_eq_error_iff]
  constructor
  · rintro ⟨_, _, ⟨beyond, rfl, rfl⟩, rfl, rfl⟩
    exact ⟨beyond, rfl, rfl⟩
  · rintro ⟨beyond, rfl, rfl⟩
    exact ⟨_, _, ⟨beyond, rfl, rfl⟩, rfl, rfl⟩

theorem push_eq_error {byte : Byte} :
    push byte machine = .error cause left ↔
      Stack.capacity ≤ machine.stack.pointer ∧ cause = .stackOverflow ∧ left = machine := by
  simp only [push, onStack, onPart_eq_error, Stack.Action.pushByte,
    Stack.Action.push_eq_error_iff]
  constructor
  · rintro ⟨_, _, ⟨full, rfl, rfl⟩, rfl, rfl⟩
    exact ⟨Nat.le_of_lt_succ full, rfl, rfl⟩
  · rintro ⟨full, rfl, rfl⟩
    exact ⟨_, _, ⟨Nat.lt_succ_of_le full, rfl, rfl⟩, rfl, rfl⟩

theorem pop_eq_error :
    pop machine = .error cause left ↔
      machine.stack.pointer = 0 ∧ cause = .stackUnderflow ∧ left = machine := by
  simp only [pop, onStack, onPart_eq_error, Stack.Action.pop_eq_error_iff]
  constructor
  · rintro ⟨_, _, ⟨empty, rfl, rfl⟩, rfl, rfl⟩
    exact ⟨empty, rfl, rfl⟩
  · rintro ⟨empty, rfl, rfl⟩
    exact ⟨_, _, ⟨empty, rfl, rfl⟩, rfl, rfl⟩

theorem jump_eq_error {target : Nat} :
    jump target machine = .error cause left ↔
      machine.tape.bytes.length < target ∧ cause = .jumpOutOfRange target ∧ left = machine := by
  unfold jump
  rcases Nat.lt_or_ge machine.tape.bytes.length target with beyond | within
  · rw [Tape.seek_of_lt beyond]
    constructor
    · rintro ⟨⟩
      exact ⟨beyond, rfl, rfl⟩
    · rintro ⟨-, rfl, rfl⟩
      rfl
  · simp [Tape.seek_of_le within, Nat.not_lt_of_le within]

end Fail

theorem atomic_store (address : Byte) (value : Value) : Atomic (store address value) :=
  fun _ _ _ failed => (store_eq_error.mp failed).2.2

theorem atomic_push (byte : Byte) : Atomic (push byte) :=
  fun _ _ _ failed => (push_eq_error.mp failed).2.2

theorem atomic_pop : Atomic pop :=
  fun _ _ _ failed => (pop_eq_error.mp failed).2.2

theorem atomic_jump (target : Nat) : Atomic (jump target) :=
  fun _ _ _ failed => (jump_eq_error.mp failed).2.2

theorem atomic_execute (instruction : Instruction) : Atomic (execute instruction) := by
  cases instruction with
  | move destination source =>
      refine (unchanging_ask _).bind fun cell => ?_
      refine (unchanging_ask _).bind fun value => ?_
      exact atomic_store _ _
  | load destination value =>
      refine (unchanging_ask _).bind fun cell => ?_
      split
      · exact atomic_store _ _
      · split
        · exact atomic_store _ _
        · exact .throw _
  | jump target =>
      refine (unchanging_ask _).bind fun offset => ?_
      exact atomic_jump offset
  | push source =>
      refine (unchanging_ask _).bind fun byte => ?_
      exact atomic_push byte
  | pop => exact fun _ _ _ failed => atomic_pop _ _ _ (discard_eq_error.mp failed)
  | arithmetic op left right =>
      refine (unchanging_ask _).bind fun left => ?_
      refine (unchanging_ask _).bind fun right => ?_
      split
      · exact atomic_push _
      · exact .throw _
  | compare condition left right =>
      refine (unchanging_ask _).bind fun left => ?_
      refine (unchanging_ask _).bind fun right => ?_
      exact atomic_push _
  | branch condition left right target =>
      refine (unchanging_ask _).bind fun left => ?_
      refine (unchanging_ask _).bind fun right => ?_
      refine (unchanging_ask _).bind fun offset => ?_
      split
      · exact atomic_jump offset
      · exact .pure _
  | bitwise op destination source =>
      refine (unchanging_ask _).bind fun cell => ?_
      refine (unchanging_ask _).bind fun source => ?_
      refine (unchanging_ask _).bind fun value => ?_
      exact atomic_store _ _
  | invert destination =>
      refine (unchanging_ask _).bind fun cell => ?_
      refine (unchanging_ask _).bind fun value => ?_
      exact atomic_store _ _

theorem fetch_of_error {machine : Machine} {fault : Fault}
    (failed : machine.fetch.result = .error fault) :
    machine.fetch.machine =
      { machine with
        tape := machine.tape.decode.2
        offset := machine.tape.cursor
        status := .faulted fault } := by
  unfold fetch at failed ⊢
  cases decoded : machine.tape.decode with
  | mk result tape =>
      rw [decoded] at failed
      cases result with
      | error error =>
          cases failed
          rfl
      | ok instruction =>
          cases executed : execute instruction
              { machine with tape := tape, offset := machine.tape.cursor } with
          | error cause left =>
              simp only [executed] at failed ⊢
              obtain rfl := atomic_execute instruction _ cause left executed
              cases failed
              rfl
          | ok done left =>
              simp only [executed] at failed
              cases failed

/-- A step that faults changes nothing but the status, which records the fault, the
recorded offset and the cursor. This holds at every machine, reached or not. -/
theorem step_atomic {machine : Machine} {fault : Fault}
    (running : machine.status = .running)
    (failed : machine.advance.result = .error fault) :
    machine.step =
      { machine with
        tape := { machine.tape with cursor := machine.step.tape.cursor }
        offset := machine.step.offset
        status := .faulted fault } := by
  unfold step
  unfold advance at failed ⊢
  rw [running] at failed ⊢
  by_cases more : machine.tape.hasNext = true
  · simp only [more, if_true] at failed ⊢
    rw [fetch_of_error failed]
    have same : machine.tape.decode.2.bytes = machine.tape.bytes :=
      Tape.bytes_read machine.tape Decode.instruction
    rw [← same]
  · simp only [more] at failed
    cases failed

/-- Eight bytes that would run past the end of memory after six of them, and a byte for a stack
that is full. -/
theorem step_atomic_no_room :
    let loading := (start { bytes := [0xfd, 0x07, 0xec, 0xfa, 1, 2, 3, 4, 5, 6, 7, 8] }).step
    let pushing : Machine :=
      { tape := { bytes := [0xfd, 0x07] }, stack := ⟨Cells.zero 1024, 1024⟩ }
    let unwritten : Fault := ⟨2, .memoryOutOfRange 0xfa .quadWord⟩
    let overflow : Fault := ⟨0, .stackOverflow⟩
    (loading.status = .running ∧ loading.advance.result = .error unwritten ∧
      loading.step =
        { loading with
          tape := { loading.tape with cursor := loading.step.tape.cursor }
          offset := loading.step.offset
          status := .faulted unwritten }) ∧
    pushing.status = .running ∧ pushing.advance.result = .error overflow ∧
      pushing.step =
        { pushing with
          tape := { pushing.tape with cursor := pushing.step.tape.cursor }
          offset := pushing.step.offset
          status := .faulted overflow } := by
  intro loading pushing unwritten overflow
  have unloaded : loading.advance.result = .error unwritten := by rfl
  have unpushed : pushing.advance.result = .error overflow := by rfl
  exact ⟨⟨rfl, unloaded, step_atomic rfl unloaded⟩, rfl, unpushed, step_atomic rfl unpushed⟩

end ByteMachine.Machine
