import ByteMachine.Proofs.Answer
import ByteMachine.Proofs.Machine.Atomic

namespace ByteMachine.Machine

/-! What a step can do. A completed instruction is described by what its operands stand
for in the machine before it, and by the one change that it makes. -/

section Action

variable {α β : Type} {machine left : Machine}

theorem ask_bind_eq_ok {question : Machine → Except Fault.Cause α} {after : α → Action β}
    {result : β} :
    (ask question >>= after) machine = .ok result left ↔
      ∃ answer, question machine = .ok answer ∧ after answer machine = .ok result left := by
  change EStateM.bind (ask question) after machine = _ ↔ _
  unfold EStateM.bind ask
  cases question machine with
  | ok answer => simp
  | error cause => simp

theorem discard_eq_ok {action : Action α} :
    discard action machine = .ok () left ↔ ∃ result, action machine = .ok result left := by
  change EStateM.map (fun _ => ()) action machine = _ ↔ _
  unfold EStateM.map
  cases action machine with
  | ok result after => simp
  | error cause after => simp

theorem onPart_eq_ok {σ : Type} {part : Machine → σ} {replace : Machine → σ → Machine}
    {call : EStateM AccessError σ α} {result : α} :
    onPart part replace call machine = .ok result left ↔
      ∃ state, call (part machine) = .ok result state ∧ left = replace machine state := by
  unfold onPart
  cases call (part machine) with
  | ok answer state =>
      constructor
      · rintro ⟨⟩
        exact ⟨state, rfl, rfl⟩
      · rintro ⟨_, ⟨⟩, rfl⟩
        rfl
  | error error state => simp

theorem store_eq_ok {address : Byte} {value : Value} :
    store address value machine = .ok () left ↔
      ∃ memory, machine.memory.write address value = .ok memory ∧
        left = { machine with memory := memory } := by
  simp only [store, onMemory, onPart_eq_ok, Memory.write_eq_ok_iff_action]

theorem push_eq_ok {byte : Byte} :
    push byte machine = .ok () left ↔
      ∃ stack, machine.stack.pushByte byte = .ok stack ∧
        left = { machine with stack := stack } := by
  simp only [push, onStack, onPart_eq_ok, Stack.Action.pushByte, Stack.pushByte,
    Stack.push_eq_ok_iff_action]

theorem pop_eq_ok {byte : Byte} :
    pop machine = .ok byte left ↔
      ∃ stack, machine.stack.pop = .ok (byte, stack) ∧
        left = { machine with stack := stack } := by
  simp only [pop, onStack, onPart_eq_ok, Stack.pop_eq_ok_iff_action]

theorem jump_eq_ok {target : Nat} :
    jump target machine = .ok () left ↔
      target ≤ machine.tape.bytes.length ∧
        left = { machine with tape := { machine.tape with cursor := target } } := by
  unfold jump
  rcases Nat.lt_or_ge machine.tape.bytes.length target with beyond | within
  · simp [Tape.seek_of_lt beyond, Nat.not_le_of_lt beyond]
  · simp [Tape.seek_of_le within, within, eq_comm]

end Action

/-- The instruction is completed on the first machine and leaves the second one. -/
inductive Executes (machine : Machine) : Instruction → Machine → Prop where
  | move {destination source : Operand} {cell : Destination} {value : Value}
      {memory : Memory}
      (resolved : machine.destination destination = .ok cell)
      (named : machine.moveSource source = .ok value)
      (written : machine.memory.write cell.address
        (value.resize (moveWidth cell source value)) = .ok memory) :
      Executes machine (.move destination source) { machine with memory := memory }
  | load {destination : Operand} {value : Value} {cell : Destination} {memory : Memory}
      (resolved : machine.destination destination = .ok cell)
      (fits : ∀ width, cell.width? = some width → width = value.width)
      (written : machine.memory.write cell.address value = .ok memory) :
      Executes machine (.load destination value) { machine with memory := memory }
  | jump {target : Operand} {offset : Nat}
      (resolved : machine.jumpTarget target = .ok offset)
      (within : offset ≤ machine.tape.bytes.length) :
      Executes machine (.jump target)
        { machine with tape := { machine.tape with cursor := offset } }
  | push {source : Operand} {byte : Byte} {stack : Stack}
      (named : machine.byte source = .ok byte)
      (pushed : machine.stack.pushByte byte = .ok stack) :
      Executes machine (.push source) { machine with stack := stack }
  | pop {byte : Byte} {stack : Stack} (popped : machine.stack.pop = .ok (byte, stack)) :
      Executes machine .pop { machine with stack := stack }
  | arithmetic {op : Arithmetic} {left right : Operand} {first second result : Byte}
      {stack : Stack}
      (leftNamed : machine.byte left = .ok first)
      (rightNamed : machine.byte right = .ok second)
      (computed : op.result? first second = some result)
      (pushed : machine.stack.pushByte result = .ok stack) :
      Executes machine (.arithmetic op left right) { machine with stack := stack }
  | compare {condition : Condition} {left right : Operand} {first second : Byte}
      {stack : Stack}
      (leftNamed : machine.byte left = .ok first)
      (rightNamed : machine.byte right = .ok second)
      (pushed : machine.stack.pushByte
        (if condition.holds first second then 1 else 0) = .ok stack) :
      Executes machine (.compare condition left right) { machine with stack := stack }
  | branchTaken {condition : Condition} {left right target : Operand} {first second : Byte}
      {offset : Nat}
      (leftNamed : machine.byte left = .ok first)
      (rightNamed : machine.byte right = .ok second)
      (resolved : machine.jumpTarget target = .ok offset)
      (holds : condition.holds first second = true)
      (within : offset ≤ machine.tape.bytes.length) :
      Executes machine (.branch condition left right target)
        { machine with tape := { machine.tape with cursor := offset } }
  | branchPassed {condition : Condition} {left right target : Operand}
      {first second : Byte} {offset : Nat}
      (leftNamed : machine.byte left = .ok first)
      (rightNamed : machine.byte right = .ok second)
      (resolved : machine.jumpTarget target = .ok offset)
      (fails : condition.holds first second = false) :
      Executes machine (.branch condition left right target) machine
  | bitwise {op : Bitwise} {destination source : Operand} {cell : Destination}
      {byte : Byte} {value : Value} {memory : Memory}
      (resolved : machine.destination destination = .ok cell)
      (named : machine.byte source = .ok byte)
      (loaded : machine.load cell.address cell.width = .ok value)
      (written : machine.memory.write cell.address
        (.ofUInt64 cell.width (op.result cell.width value.toUInt64 byte)) = .ok memory) :
      Executes machine (.bitwise op destination source) { machine with memory := memory }
  | invert {destination : Operand} {cell : Destination} {value : Value} {memory : Memory}
      (resolved : machine.destination destination = .ok cell)
      (loaded : machine.load cell.address cell.width = .ok value)
      (written : machine.memory.write cell.address
        (.ofUInt64 cell.width (~~~value.toUInt64)) = .ok memory) :
      Executes machine (.invert destination) { machine with memory := memory }

theorem execute_eq_ok {machine left : Machine} {instruction : Instruction}
    (done : execute instruction machine = .ok () left) :
    Executes machine instruction left := by
  cases instruction with
  | move destination source =>
      obtain ⟨cell, resolved, done⟩ := ask_bind_eq_ok.mp done
      obtain ⟨value, named, done⟩ := ask_bind_eq_ok.mp done
      obtain ⟨memory, written, rfl⟩ := store_eq_ok.mp done
      exact .move resolved named written
  | load destination value =>
      obtain ⟨cell, resolved, done⟩ := ask_bind_eq_ok.mp done
      cases sized : cell.width? with
      | none =>
          simp only [sized] at done
          obtain ⟨memory, written, rfl⟩ := store_eq_ok.mp done
          exact .load resolved (by simp [sized]) written
      | some width =>
          simp only [sized] at done
          split at done
          · rename_i same
            obtain ⟨memory, written, rfl⟩ := store_eq_ok.mp done
            exact .load resolved (by simp [sized, same]) written
          · cases done
  | jump target =>
      obtain ⟨offset, resolved, done⟩ := ask_bind_eq_ok.mp done
      obtain ⟨within, rfl⟩ := jump_eq_ok.mp done
      exact .jump resolved within
  | push source =>
      obtain ⟨byte, named, done⟩ := ask_bind_eq_ok.mp done
      obtain ⟨stack, pushed, rfl⟩ := push_eq_ok.mp done
      exact .push named pushed
  | pop =>
      obtain ⟨byte, done⟩ := discard_eq_ok.mp done
      obtain ⟨stack, popped, rfl⟩ := pop_eq_ok.mp done
      exact .pop popped
  | arithmetic op left right =>
      obtain ⟨first, leftNamed, done⟩ := ask_bind_eq_ok.mp done
      obtain ⟨second, rightNamed, done⟩ := ask_bind_eq_ok.mp done
      cases computed : op.result? first second with
      | none =>
          simp only [computed] at done
          cases done
      | some result =>
          simp only [computed] at done
          obtain ⟨stack, pushed, rfl⟩ := push_eq_ok.mp done
          exact .arithmetic leftNamed rightNamed computed pushed
  | compare condition left right =>
      obtain ⟨first, leftNamed, done⟩ := ask_bind_eq_ok.mp done
      obtain ⟨second, rightNamed, done⟩ := ask_bind_eq_ok.mp done
      obtain ⟨stack, pushed, rfl⟩ := push_eq_ok.mp done
      exact .compare leftNamed rightNamed pushed
  | branch condition left right target =>
      obtain ⟨first, leftNamed, done⟩ := ask_bind_eq_ok.mp done
      obtain ⟨second, rightNamed, done⟩ := ask_bind_eq_ok.mp done
      obtain ⟨offset, resolved, done⟩ := ask_bind_eq_ok.mp done
      cases holds : condition.holds first second with
      | true =>
          rw [if_pos holds] at done
          obtain ⟨within, rfl⟩ := jump_eq_ok.mp done
          exact .branchTaken leftNamed rightNamed resolved holds within
      | false =>
          rw [if_neg (by simp [holds])] at done
          cases done
          exact .branchPassed leftNamed rightNamed resolved holds
  | bitwise op destination source =>
      obtain ⟨cell, resolved, done⟩ := ask_bind_eq_ok.mp done
      obtain ⟨byte, named, done⟩ := ask_bind_eq_ok.mp done
      obtain ⟨value, loaded, done⟩ := ask_bind_eq_ok.mp done
      obtain ⟨memory, written, rfl⟩ := store_eq_ok.mp done
      exact .bitwise resolved named loaded written
  | invert destination =>
      obtain ⟨cell, resolved, done⟩ := ask_bind_eq_ok.mp done
      obtain ⟨value, loaded, done⟩ := ask_bind_eq_ok.mp done
      obtain ⟨memory, written, rfl⟩ := store_eq_ok.mp done
      exact .invert resolved loaded written

theorem execute_of_executes {machine left : Machine} {instruction : Instruction}
    (executes : Executes machine instruction left) :
    execute instruction machine = .ok () left := by
  cases executes with
  | move resolved named written =>
      exact ask_bind_eq_ok.mpr ⟨_, resolved, ask_bind_eq_ok.mpr ⟨_, named,
        store_eq_ok.mpr ⟨_, written, rfl⟩⟩⟩
  | load resolved fits written =>
      rename_i destination value cell memory
      refine ask_bind_eq_ok.mpr ⟨cell, resolved, ?_⟩
      cases sized : cell.width? with
      | none => exact store_eq_ok.mpr ⟨memory, written, rfl⟩
      | some width =>
          simp only [if_pos (fits width sized)]
          exact store_eq_ok.mpr ⟨memory, written, rfl⟩
  | jump resolved within =>
      exact ask_bind_eq_ok.mpr ⟨_, resolved, jump_eq_ok.mpr ⟨within, rfl⟩⟩
  | push named pushed =>
      exact ask_bind_eq_ok.mpr ⟨_, named, push_eq_ok.mpr ⟨_, pushed, rfl⟩⟩
  | pop popped => exact discard_eq_ok.mpr ⟨_, pop_eq_ok.mpr ⟨_, popped, rfl⟩⟩
  | arithmetic leftNamed rightNamed computed pushed =>
      refine ask_bind_eq_ok.mpr ⟨_, leftNamed, ask_bind_eq_ok.mpr ⟨_, rightNamed, ?_⟩⟩
      simp only [computed]
      exact push_eq_ok.mpr ⟨_, pushed, rfl⟩
  | compare leftNamed rightNamed pushed =>
      exact ask_bind_eq_ok.mpr ⟨_, leftNamed, ask_bind_eq_ok.mpr ⟨_, rightNamed,
        push_eq_ok.mpr ⟨_, pushed, rfl⟩⟩⟩
  | branchTaken leftNamed rightNamed resolved holds within =>
      refine ask_bind_eq_ok.mpr ⟨_, leftNamed, ask_bind_eq_ok.mpr ⟨_, rightNamed,
        ask_bind_eq_ok.mpr ⟨_, resolved, ?_⟩⟩⟩
      rw [if_pos holds]
      exact jump_eq_ok.mpr ⟨within, rfl⟩
  | branchPassed leftNamed rightNamed resolved fails =>
      refine ask_bind_eq_ok.mpr ⟨_, leftNamed, ask_bind_eq_ok.mpr ⟨_, rightNamed,
        ask_bind_eq_ok.mpr ⟨_, resolved, ?_⟩⟩⟩
      rw [if_neg (by simp [fails])]
      rfl
  | bitwise resolved named loaded written =>
      exact ask_bind_eq_ok.mpr ⟨_, resolved, ask_bind_eq_ok.mpr ⟨_, named,
        ask_bind_eq_ok.mpr ⟨_, loaded, store_eq_ok.mpr ⟨_, written, rfl⟩⟩⟩⟩
  | invert resolved loaded written =>
      exact ask_bind_eq_ok.mpr ⟨_, resolved, ask_bind_eq_ok.mpr ⟨_, loaded,
        store_eq_ok.mpr ⟨_, written, rfl⟩⟩⟩

theorem execute_eq_ok_iff {machine left : Machine} {instruction : Instruction} :
    execute instruction machine = .ok () left ↔ Executes machine instruction left :=
  ⟨execute_eq_ok, execute_of_executes⟩

namespace Executes

variable {machine left : Machine} {instruction : Instruction}

/-- An instruction never touches what the step records. -/
theorem frame (executes : Executes machine instruction left) :
    left.status = machine.status ∧ left.offset = machine.offset ∧
      left.steps = machine.steps ∧ left.tape.bytes = machine.tape.bytes := by
  cases executes <;> exact ⟨rfl, rfl, rfl, rfl⟩

theorem cursor (executes : Executes machine instruction left) :
    left.tape.cursor = machine.tape.cursor ∨
      left.tape.cursor ≤ machine.tape.bytes.length := by
  cases executes with
  | jump resolved within => exact .inr within
  | branchTaken leftNamed rightNamed resolved holds within => exact .inr within
  | _ => exact .inl rfl

/-- An instruction pushes one byte, pops one byte or leaves the stack. -/
theorem stack (executes : Executes machine instruction left) :
    left.stack = machine.stack ∨
      (∃ byte, machine.stack.pushByte byte = .ok left.stack) ∨
      ∃ byte, machine.stack.pop = .ok (byte, left.stack) := by
  cases executes with
  | push named pushed => exact .inr (.inl ⟨_, pushed⟩)
  | pop popped => exact .inr (.inr ⟨_, popped⟩)
  | arithmetic leftNamed rightNamed computed pushed => exact .inr (.inl ⟨_, pushed⟩)
  | compare leftNamed rightNamed pushed => exact .inr (.inl ⟨_, pushed⟩)
  | _ => exact .inl rfl

end Executes

/-- What a step returns, and the machine that it leaves. -/
inductive Steps (machine : Machine) : Except Fault Bool → Machine → Prop where
  | finished (status : machine.status = .finished) : Steps machine (.ok false) machine
  | faulted {fault : Fault} (status : machine.status = .faulted fault) :
      Steps machine (.error fault) machine
  | ends (running : machine.status = .running) (ended : machine.tape.hasNext = false) :
      Steps machine (.ok false) { machine with status := .finished }
  | misreads {error : DecodeError} {moved : Tape} (running : machine.status = .running)
      (more : machine.tape.hasNext = true)
      (decoded : machine.tape.decode = (.error error, moved)) :
      Steps machine (.error ⟨machine.tape.cursor, .ofDecodeError error⟩)
        { machine with
          tape := moved
          offset := machine.tape.cursor
          status := .faulted ⟨machine.tape.cursor, .ofDecodeError error⟩ }
  | fails {instruction : Instruction} {moved : Tape} {cause : Fault.Cause} {left : Machine}
      (running : machine.status = .running) (more : machine.tape.hasNext = true)
      (decoded : machine.tape.decode = (.ok instruction, moved))
      (failed : execute instruction
        { machine with tape := moved, offset := machine.tape.cursor } = .error cause left) :
      Steps machine (.error ⟨machine.tape.cursor, cause⟩)
        { machine with
          tape := moved
          offset := machine.tape.cursor
          status := .faulted ⟨machine.tape.cursor, cause⟩ }
  | completes {instruction : Instruction} {moved : Tape} {left : Machine}
      (running : machine.status = .running) (more : machine.tape.hasNext = true)
      (decoded : machine.tape.decode = (.ok instruction, moved))
      (executes : Executes
        { machine with tape := moved, offset := machine.tape.cursor } instruction left) :
      Steps machine (.ok true) { left with steps := left.steps + 1 }

theorem steps_advance (machine : Machine) :
    Steps machine machine.advance.result machine.step := by
  unfold step advance
  cases status : machine.status with
  | finished => exact .finished status
  | faulted fault => exact .faulted status
  | running =>
      cases more : machine.tape.hasNext with
      | false => exact .ends status more
      | true =>
          dsimp only
          rw [if_pos rfl]
          unfold fetch
          cases decoded : machine.tape.decode with
          | mk result moved =>
              cases result with
              | error error => exact .misreads status more decoded
              | ok instruction =>
                  cases executed : execute instruction
                      { machine with tape := moved, offset := machine.tape.cursor } with
                  | error cause left =>
                      obtain rfl := atomic_execute instruction _ cause left executed
                      simp only [executed]
                      exact .fails status more decoded executed
                  | ok done left =>
                      simp only [executed]
                      exact .completes status more decoded (execute_eq_ok_iff.mp executed)

end ByteMachine.Machine
