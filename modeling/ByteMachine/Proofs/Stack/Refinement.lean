import ByteMachine.Proofs.Stack
import ByteMachine.Proofs.Value

namespace ByteMachine.Stack

/-! A stack behaves as a list of at most `capacity` bytes, the last of them on top. It is
determined by this list, because the cells above it are clear. -/

variable {stack left right : Stack}

theorem length_contents (within : stack.pointer ≤ capacity) :
    stack.contents.length = stack.pointer := by
  rw [contents, List.length_take, Vector.length_toList]
  exact Nat.min_eq_left within

theorem contents_of_push {value : Value} (pushed : Action.push value stack = .ok () left) :
    left.contents = stack.contents ++ value.bytes := by
  obtain ⟨fits, rfl⟩ := Action.push_eq_ok_iff.mp pushed
  rw [← value.length_bytes] at fits ⊢
  have length := length_contents (Nat.le_trans (Nat.le_add_right _ _) fits)
  rw [contents, Cells.toList_overwrite _ _ _ fits]
  apply List.take_left'
  rw [List.length_append]
  exact congrArg (· + value.bytes.length) length

theorem contents_of_pop {byte : Byte} (within : stack.pointer ≤ capacity)
    (popped : Action.pop stack = .ok byte left) : stack.contents = left.contents ++ [byte] := by
  obtain ⟨last, pointer, rfl, rfl⟩ := Action.pop_eq_ok_iff.mp popped
  have inside : last < stack.cells.toList.length := by
    rw [Vector.length_toList]
    omega
  have length : (stack.cells.toList.take last).length = last :=
    List.length_take_of_le (Nat.le_of_lt inside)
  have kept : contents ⟨stack.cells.overwrite last [0], last⟩ = stack.cells.toList.take last := by
    rw [contents, Cells.toList_overwrite _ _ _ (by simp; omega), List.append_assoc]
    exact List.take_left' length
  rw [kept, contents, pointer, List.take_succ_eq_append_getElem inside, Cells.getElem_toList]

namespace Clear

theorem contents_eq_nil_iff (clear : stack.Clear) : stack.contents = [] ↔ stack.pointer = 0 := by
  rw [← List.length_eq_zero_iff, length_contents clear.pointer_le]

theorem free_eq (clear : stack.Clear) :
    stack.free = List.replicate (capacity - stack.contents.length) 0 := by
  rw [length_contents clear.pointer_le]
  apply List.eq_replicate_iff.mpr
  refine ⟨by simp [free], fun byte member => ?_⟩
  obtain ⟨index, within, rfl⟩ := List.mem_iff_getElem.mp member
  simp only [free, List.getElem_drop, Cells.getElem_toList]
  exact clear.above _ (Nat.le_add_right _ _)

theorem eq_of_contents (clear : left.Clear) (other : right.Clear)
    (same : left.contents = right.contents) : left = right := by
  have pointer : left.pointer = right.pointer := by
    rw [← length_contents clear.pointer_le, same, length_contents other.pointer_le]
  have cells : left.cells = right.cells := by
    apply Vector.toList_inj.mp
    calc
      left.cells.toList = left.contents ++ left.free := (List.take_append_drop _ _).symm
      _ = right.contents ++ right.free := by rw [clear.free_eq, other.free_eq, same]
      _ = right.cells.toList := List.take_append_drop _ _
  cases left
  cases right
  cases pointer
  cases cells
  rfl

theorem getLast?_contents (clear : stack.Clear) {byte : Byte} :
    stack.contents.getLast? = some byte ↔ ∃ left, Action.pop stack = .ok byte left := by
  cases popped : Action.pop stack with
  | ok last left =>
      rw [contents_of_pop clear.pointer_le popped, List.getLast?_concat]
      simp
  | error error left =>
      obtain ⟨bare, -, -⟩ := Action.pop_eq_error_iff.mp popped
      rw [clear.contents_eq_nil_iff.mpr bare]
      simp

theorem top_eq (clear : stack.Clear) : stack.top = stack.contents.getLastD 0 := by
  cases pointer : stack.pointer with
  | zero =>
      rw [clear.contents_eq_nil_iff.mpr pointer, top, pointer]
      rfl
  | succ last =>
      have popped := Action.pop_of_pointer_succ pointer
      rw [contents_of_pop clear.pointer_le popped, top, pointer, List.getLastD_concat]

end Clear

/-- A call on a stack. -/
inductive Call where
  | push (value : Value)
  | pushByte (byte : Byte)
  | pop

/-- The stack behind an action, whether the action succeeded or failed. -/
def behind {α : Type} : EStateM.Result AccessError Stack α → Stack
  | .ok _ left => left
  | .error _ left => left

namespace Call

def leaves (stack : Stack) : Call → Stack
  | push value => behind (Action.push value stack)
  | pushByte byte => behind (Action.pushByte byte stack)
  | pop => behind (Action.pop stack)

/-- What a call makes of a list of bytes. A value that would make it too long is left out. -/
def onBytes (bytes : List Byte) : Call → List Byte
  | push value =>
      if bytes.length + value.width.size ≤ capacity then
        bytes ++ bigEndian value.width.size value.toNat
      else bytes
  | pushByte byte => if bytes.length + 1 ≤ capacity then bytes ++ [byte] else bytes
  | pop => bytes.dropLast

end Call

def after (calls : List Call) : Stack :=
  calls.foldl Call.leaves empty

def bytesAfter (calls : List Call) : List Byte :=
  calls.foldl Call.onBytes []

namespace Clear

theorem push_refines (clear : stack.Clear) (value : Value) :
    (Call.leaves stack (.push value)).Clear ∧
      (Call.leaves stack (.push value)).contents =
        Call.onBytes stack.contents (.push value) := by
  rw [Call.onBytes, length_contents clear.pointer_le, Call.leaves]
  cases pushed : Action.push value stack with
  | ok done left =>
      rw [if_pos (Action.push_eq_ok_iff.mp pushed).1, value.bigEndian_toNat]
      exact ⟨clear.push (push_eq_ok_iff_action.mpr pushed), contents_of_push pushed⟩
  | error error left =>
      obtain ⟨full, -, rfl⟩ := Action.push_eq_error_iff.mp pushed
      rw [if_neg (Nat.not_le_of_lt full)]
      exact ⟨clear, rfl⟩

theorem pop_refines (clear : stack.Clear) :
    (Call.leaves stack .pop).Clear ∧
      (Call.leaves stack .pop).contents = Call.onBytes stack.contents .pop := by
  rw [Call.onBytes, Call.leaves]
  cases popped : Action.pop stack with
  | ok byte left =>
      rw [contents_of_pop clear.pointer_le popped, List.dropLast_concat]
      exact ⟨clear.pop (pop_eq_ok_iff_action.mpr popped), rfl⟩
  | error error left =>
      obtain ⟨bare, -, rfl⟩ := Action.pop_eq_error_iff.mp popped
      rw [clear.contents_eq_nil_iff.mpr bare]
      exact ⟨clear, clear.contents_eq_nil_iff.mpr bare⟩

theorem call_refines (clear : stack.Clear) (call : Call) :
    (call.leaves stack).Clear ∧ (call.leaves stack).contents = call.onBytes stack.contents := by
  cases call with
  | push value => exact clear.push_refines value
  | pushByte byte =>
      have pushed := clear.push_refines (.ofByte byte)
      rwa [Call.onBytes, (Value.ofByte byte).bigEndian_toNat] at pushed
  | pop => exact clear.pop_refines

end Clear

theorem after_refines (calls : List Call) :
    (after calls).Clear ∧ (after calls).contents = bytesAfter calls := by
  have general : ∀ stack : Stack, stack.Clear →
      (calls.foldl Call.leaves stack).Clear ∧
        (calls.foldl Call.leaves stack).contents = calls.foldl Call.onBytes stack.contents := by
    induction calls with
    | nil => exact fun stack clear => ⟨clear, rfl⟩
    | cons call calls induction =>
        intro stack clear
        obtain ⟨kept, contents⟩ := clear.call_refines call
        rw [List.foldl_cons, List.foldl_cons, ← contents]
        exact induction _ kept
  exact general empty clear_empty

/-- Takes bytes off, one after the other. -/
def Action.pops : Nat → Action (List Byte)
  | 0 => pure []
  | count + 1 => do
      let byte ← pop
      let bytes ← pops count
      return byte :: bytes

theorem Clear.pops_eq {base taken : List Byte} (clear : stack.Clear)
    (held : stack.contents = base ++ taken.reverse) :
    ∃ left, Action.pops taken.length stack = .ok taken left ∧ left.Clear ∧
      left.contents = base := by
  induction taken generalizing stack with
  | nil => exact ⟨stack, rfl, clear, by simpa using held⟩
  | cons byte taken induction =>
      rw [List.reverse_cons, ← List.append_assoc] at held
      have last : stack.contents.getLast? = some byte := by
        rw [held, List.getLast?_concat]
      obtain ⟨next, popped⟩ := clear.getLast?_contents.mp last
      have rest : next.contents = base ++ taken.reverse := by
        rw [contents_of_pop clear.pointer_le popped] at held
        exact List.append_cancel_right held
      obtain ⟨left, taken, kept, contents⟩ :=
        induction (clear.pop (pop_eq_ok_iff_action.mpr popped)) rest
      refine ⟨left, ?_, kept, contents⟩
      rw [List.length_cons, Action.pops]
      change EStateM.bind Action.pop _ stack = _
      simp only [EStateM.bind, popped]
      change EStateM.bind (Action.pops _) _ next = _
      simp only [EStateM.bind, taken]
      rfl

/-- What a stack shows is what the list of bytes tells. -/
structure Refines (stack : Stack) (bytes : List Byte) : Prop where
  bound : bytes.length ≤ capacity
  contents : stack.contents = bytes
  free : stack.free = List.replicate (capacity - bytes.length) 0
  top : stack.top = bytes.getLastD 0
  push_fails : ∀ value error left,
    Action.push value stack = .error error left ↔
      capacity < bytes.length + value.width.size ∧ error = .stackOverflow ∧ left = stack
  pushByte_fails : ∀ byte error left,
    Action.pushByte byte stack = .error error left ↔
      capacity < bytes.length + 1 ∧ error = .stackOverflow ∧ left = stack
  pop_fails : ∀ error left,
    Action.pop stack = .error error left ↔
      bytes = [] ∧ error = .stackUnderflow ∧ left = stack
  pop_returns : ∀ byte,
    (∃ left, Action.pop stack = .ok byte left) ↔ bytes.getLast? = some byte

theorem Clear.refines (clear : stack.Clear) : stack.Refines stack.contents := by
  have length := length_contents clear.pointer_le
  have push_fails : ∀ value error left, Action.push value stack = .error error left ↔
      capacity < stack.contents.length + value.width.size ∧ error = .stackOverflow ∧
        left = stack := by
    intro value error left
    rw [length]
    exact Action.push_eq_error_iff
  exact {
    bound := length ▸ clear.pointer_le
    contents := rfl
    free := clear.free_eq
    top := clear.top_eq
    push_fails := push_fails
    pushByte_fails := fun byte => push_fails (.ofByte byte)
    pop_fails := fun error left => by
      rw [clear.contents_eq_nil_iff]
      exact Action.pop_eq_error_iff
    pop_returns := fun byte => clear.getLast?_contents.symm }

/-- Whatever is called on an empty stack, it refines the list that the same calls make. Stacks
are equal if their contents are, and popping what was pushed restores the stack. -/
theorem refines_bytesAfter (calls : List Call) :
    (after calls).Refines (bytesAfter calls) ∧
    (∀ others, after calls = after others ↔ (after calls).contents = (after others).contents) ∧
    ∀ value left, Action.push value (after calls) = .ok () left →
      Action.pops value.width.size left =
        .ok (bigEndian value.width.size value.toNat).reverse (after calls) := by
  obtain ⟨clear, contents⟩ := after_refines calls
  refine ⟨contents ▸ clear.refines, fun others => ⟨congrArg Stack.contents, ?_⟩, ?_⟩
  · exact clear.eq_of_contents (after_refines others).1
  · intro value left pushed
    have held : left.contents = (after calls).contents ++ value.bytes.reverse.reverse := by
      rw [List.reverse_reverse]
      exact contents_of_push pushed
    obtain ⟨rest, popped, kept, same⟩ :=
      (clear.push (push_eq_ok_iff_action.mpr pushed)).pops_eq held
    rw [List.length_reverse, value.length_bytes, kept.eq_of_contents clear same] at popped
    rw [value.bigEndian_toNat, popped]

/-- A word is pushed and popped again, one pop fails, and a byte is pushed. The stack is the
one with this byte alone, also after a double word went on and off. -/
theorem refines_bytesAfter_restored :
    let calls : List Call := [.push (.ofNat .word 0x0102), .pop, .pop, .pop, .pushByte 0x07]
    let value := Value.ofNat .doubleWord 0x01020304
    let left := behind (Action.push value (after calls))
    Action.push value (after calls) = .ok () left ∧
      (after calls).Refines [0x07] ∧
      after calls = after [.pushByte 0x07] ∧
      Action.pops 4 left = .ok [0x04, 0x03, 0x02, 0x01] (after calls) := by
  intro calls value left
  obtain ⟨refines, equal, restores⟩ := refines_bytesAfter calls
  have fits : (after calls).pointer + value.width.size ≤ capacity := by decide +kernel
  have pushed : Action.push value (after calls) = .ok () left := by
    simp only [left, behind, Action.push_of_fits fits]
  have same : (after calls).contents = (after [.pushByte 0x07]).contents := by decide +kernel
  have taken : (bigEndian value.width.size value.toNat).reverse = [0x04, 0x03, 0x02, 0x01] := by
    decide +kernel
  exact ⟨pushed, refines, (equal _).mpr same, taken ▸ restores value left pushed⟩

end ByteMachine.Stack
