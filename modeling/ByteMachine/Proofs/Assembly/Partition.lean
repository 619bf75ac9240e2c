import ByteMachine.Proofs.Assembly.Lossless

namespace ByteMachine

/-! The lines of a listing divide the program among them: an instruction has the bytes that
it is decoded from, and a line of data has as many bytes in a row as there are at which no
instruction can be decoded. There is no other way to divide the program so. -/

def Assembly.Statement.isData : Statement → Bool
  | instruction _ => false
  | data _ => true

/-- No instruction can be decoded at the offset. -/
def Unreadable (program : List Byte) (offset : Nat) : Prop :=
  ∃ error moved, Tape.decode ⟨program, offset⟩ = (.error error, moved)

/-- A statement, and the offsets at which its bytes start and end. -/
structure Span where
  start : Nat
  finish : Nat
  statement : Assembly.Statement

namespace Span

/-- The statement tells what the program has between the two offsets. -/
inductive Shows (program : List Byte) : Span → Prop where
  | instruction {start finish : Nat} {written : Instruction}
      (decoded : Tape.decode ⟨program, start⟩ = (.ok written, ⟨program, finish⟩)) :
      Shows program ⟨start, finish, .instruction written⟩
  | data {start finish : Nat} {bytes : List Byte}
      (nonempty : bytes ≠ []) (listed : bytes = program.extract start finish)
      (unreadable : ∀ offset, start ≤ offset → offset < finish → Unreadable program offset) :
      Shows program ⟨start, finish, .data bytes⟩

/-- The spans cover the offsets from one to another in order, each of them once. -/
def Tile : (start finish : Nat) → List Span → Prop
  | start, finish, [] => start = finish
  | start, finish, span :: spans =>
      span.start = start ∧ start < span.finish ∧ Tile span.finish finish spans

/-- The spans share the bytes between two offsets of a program, and no two neighbours are
lines of data. -/
structure Divide (program : List Byte) (start finish : Nat) (spans : List Span) : Prop where
  tile : Tile start finish spans
  shown : ∀ span ∈ spans, span.Shows program
  parted : spans.IsChain fun first second =>
    ¬(first.statement.isData = true ∧ second.statement.isData = true)

variable {program : List Byte} {start middle finish : Nat} {span other : Span}
  {spans others : List Span}

theorem Tile.le (tile : Tile start finish spans) : start ≤ finish := by
  induction spans generalizing start with
  | nil => exact Nat.le_of_eq tile
  | cons span spans induction =>
      obtain ⟨-, forward, later⟩ := tile
      exact Nat.le_trans (Nat.le_of_lt forward) (induction later)

theorem Tile.concat (tile : Tile start middle spans) (joins : span.start = middle)
    (forward : middle < span.finish) : Tile start span.finish (spans ++ [span]) := by
  induction spans generalizing start with
  | nil =>
      obtain rfl : start = middle := tile
      exact ⟨joins, forward, rfl⟩
  | cons first spans induction =>
      obtain ⟨same, ahead, later⟩ := tile
      exact ⟨same, ahead, induction later⟩

namespace Divide

theorem nil (program : List Byte) (start : Nat) : Divide program start start [] where
  tile := rfl
  shown := by simp
  parted := .nil

theorem concat (divide : Divide program start middle spans) (joins : span.start = middle)
    (forward : middle < span.finish) (shows : span.Shows program)
    (apart : ∀ last ∈ spans.getLast?,
      ¬(last.statement.isData = true ∧ span.statement.isData = true)) :
    Divide program start span.finish (spans ++ [span]) where
  tile := divide.tile.concat joins forward
  shown := by
    intro member among
    rcases List.mem_append.mp among with among | among
    · exact divide.shown member among
    · obtain rfl := List.mem_singleton.mp among
      exact shows
  parted := by
    apply List.isChain_append.mpr
    refine ⟨divide.parted, .singleton span, ?_⟩
    intro last among next same
    cases same
    exact apart last among

theorem tail (divide : Divide program start finish (span :: spans)) :
    Divide program span.finish finish spans where
  tile := divide.tile.2.2
  shown := fun member among => divide.shown member (List.mem_cons_of_mem _ among)
  parted := divide.parted.tail

/-- A line of data is as long as it can be: an instruction starts behind it, unless the
program ends there. -/
theorem le_finish_of_unreadable (divide : Divide program start program.length (span :: spans))
    (data : span.statement.isData = true) (within : finish ≤ program.length)
    (unreadable : ∀ offset, start ≤ offset → offset < finish → Unreadable program offset) :
    finish ≤ span.finish := by
  apply Nat.le_of_not_lt
  intro longer
  obtain ⟨-, forward, later⟩ := divide.tile
  cases spans with
  | nil =>
      have ended : span.finish = program.length := later
      omega
  | cons next spans =>
      have apart := (List.isChain_cons_cons.mp divide.parted).1
      obtain ⟨error, moved, failed⟩ := unreadable span.finish (Nat.le_of_lt forward) longer
      cases divide.shown next (by simp) with
      | instruction decoded =>
          obtain ⟨rfl, -, -⟩ := later
          rw [decoded] at failed
          cases failed
      | data nonempty listed gap => exact apart ⟨data, rfl⟩

theorem finish_le (divide : Divide program start program.length (span :: spans)) :
    span.finish ≤ program.length :=
  divide.tile.2.2.le

theorem head_eq (divide : Divide program start program.length (span :: spans))
    (again : Divide program start program.length (other :: others)) : span = other := by
  obtain ⟨here, forward, -⟩ := divide.tile
  obtain ⟨there, ahead, -⟩ := again.tile
  cases divide.shown span (by simp) with
  | instruction decoded =>
      cases again.shown other (by simp) with
      | instruction found =>
          subst here there
          rw [decoded] at found
          cases found
          rfl
      | data nonempty listed unreadable =>
          obtain ⟨error, moved, failed⟩ := unreadable start (Nat.le_of_eq there) ahead
          subst here
          rw [decoded] at failed
          cases failed
  | data nonempty listed unreadable =>
      cases again.shown other (by simp) with
      | instruction found =>
          obtain ⟨error, moved, failed⟩ := unreadable start (Nat.le_of_eq here) forward
          subst there
          rw [found] at failed
          cases failed
      | data full spelled gap =>
          have shorter := divide.le_finish_of_unreadable rfl again.finish_le
            (fun offset above below => gap offset (Nat.le_trans (Nat.le_of_eq there) above) below)
          have longer := again.le_finish_of_unreadable rfl divide.finish_le
            (fun offset above below =>
              unreadable offset (Nat.le_trans (Nat.le_of_eq here) above) below)
          dsimp only at here there shorter longer
          obtain rfl := Nat.le_antisymm longer shorter
          rw [here, there, listed, spelled, here, there]

theorem unique (divide : Divide program start program.length spans)
    (again : Divide program start program.length others) : spans = others := by
  induction spans generalizing start others with
  | nil =>
      have ended : start = program.length := divide.tile
      cases others with
      | nil => rfl
      | cons other others =>
          have forward := again.tile.2.1
          have within := again.finish_le
          omega
  | cons span spans induction =>
      cases others with
      | nil =>
          have ended : start = program.length := again.tile
          have forward := divide.tile.2.1
          have within := divide.finish_le
          omega
      | cons other others =>
          obtain rfl := divide.head_eq again
          rw [induction divide.tail again.tail]

end Divide

end Span

namespace Draft

/-- The lines of a draft divide the program up to a mark, and what waits is the data between
the mark and the cursor. -/
structure Records (program : List Byte) (spans : List Span) (mark : Nat) (draft : Draft) :
    Prop where
  bytes : draft.tape.bytes = program
  within : draft.tape.cursor ≤ program.length
  lines : draft.lines = spans.map Span.statement
  divide : Span.Divide program 0 mark spans
  /-- The last line is not data, so that what waits may become a line. -/
  closed : ∀ last ∈ spans.getLast?, last.statement.isData = false
  begins : mark ≤ draft.tape.cursor
  waits : draft.waiting = program.extract mark draft.tape.cursor
  unreadable : ∀ offset, mark ≤ offset → offset < draft.tape.cursor → Unreadable program offset

namespace Records

variable {program : List Byte} {spans : List Span} {mark : Nat} {draft : Draft} {tape : Tape}

theorem start (tape : Tape) : Records tape.bytes [] 0 { tape := tape.rewind } where
  bytes := rfl
  within := Nat.zero_le _
  lines := rfl
  divide := .nil _ _
  closed := by simp
  begins := Nat.le_refl 0
  waits := by simp
  unreadable := fun offset _ below => absurd below (Nat.not_lt_zero offset)

theorem tape_eq (records : Records program spans mark draft) :
    draft.tape = ⟨program, draft.tape.cursor⟩ := by
  rw [← records.bytes]

theorem length_waiting (records : Records program spans mark draft) :
    draft.waiting.length = draft.tape.cursor - mark := by
  have within := records.within
  rw [records.waits, List.extract_eq_take_drop, List.length_take, List.length_drop]
  omega

theorem flush (records : Records program spans mark draft) :
    ∃ flushed, draft.flush.lines = flushed.map Span.statement ∧
      Span.Divide program 0 draft.tape.cursor flushed := by
  have length := records.length_waiting
  have begins := records.begins
  unfold Draft.flush
  cases waiting : draft.waiting with
  | nil =>
      rw [waiting, List.length_nil] at length
      have reached : mark = draft.tape.cursor := by omega
      exact ⟨spans, records.lines, reached ▸ records.divide⟩
  | cons byte bytes =>
      rw [waiting, List.length_cons] at length
      have shows : Span.Shows program ⟨mark, draft.tape.cursor, .data draft.waiting⟩ :=
        .data (by rw [waiting]; exact List.cons_ne_nil byte bytes) records.waits
          records.unreadable
      rw [waiting] at shows
      refine ⟨spans ++ [⟨mark, draft.tape.cursor, .data (byte :: bytes)⟩], ?_, ?_⟩
      · simp [records.lines]
      · refine records.divide.concat rfl (by dsimp only; omega) shows ?_
        rintro last among ⟨data, -⟩
        rw [records.closed last among] at data
        cases data

theorem addInstruction (records : Records program spans mark draft) {instruction : Instruction}
    (found : draft.tape.decode = (.ok instruction, tape)) :
    ∃ listed, Records program listed tape.cursor (draft.addInstruction instruction tape) := by
  obtain ⟨flushed, lines, divide⟩ := records.flush
  obtain ⟨forward, within⟩ := Tape.cursor_of_decode found
  have same : tape.bytes = program := (Tape.bytes_of_decode found).trans records.bytes
  have shows : Span.Shows program ⟨draft.tape.cursor, tape.cursor, .instruction instruction⟩ := by
    apply Span.Shows.instruction
    rw [← records.tape_eq, found, ← same]
  refine ⟨flushed ++ [⟨draft.tape.cursor, tape.cursor, .instruction instruction⟩], ?_⟩
  exact {
    bytes := same
    within := records.bytes ▸ within
    lines := by simp [Draft.addInstruction, lines]
    divide := divide.concat rfl forward shows (by simp [Assembly.Statement.isData])
    closed := by simp [Assembly.Statement.isData]
    begins := Nat.le_refl _
    waits := by simp [Draft.addInstruction]
    unreadable := fun offset above below => absurd below (Nat.not_lt_of_le above) }

theorem setAside (records : Records program spans mark draft) {error : DecodeError} {byte : Byte}
    {left : List Byte} (failed : draft.tape.decode = (.error error, tape))
    (rest : draft.tape.rest = byte :: left) :
    Records program spans mark { draft with
      tape := { draft.tape with cursor := draft.tape.cursor + 1 }
      waiting := draft.waiting ++ [byte] } where
  bytes := records.bytes
  within := by
    have length := congrArg List.length rest
    rw [Tape.length_rest, records.bytes, List.length_cons] at length
    dsimp only
    omega
  lines := records.lines
  divide := records.divide
  closed := records.closed
  begins := Nat.le_succ_of_le records.begins
  waits := by
    have begins := records.begins
    have next : (program.drop draft.tape.cursor).take 1 = [byte] := by
      rw [Tape.rest, records.bytes] at rest
      rw [rest]
      rfl
    have longer : draft.tape.cursor + 1 - mark = draft.tape.cursor - mark + 1 := by omega
    dsimp only
    rw [records.waits, List.extract_eq_take_drop, List.extract_eq_take_drop, longer,
      List.take_add, List.drop_drop, Nat.add_sub_of_le begins, next]
  unreadable := by
    intro offset above below
    rcases Nat.lt_or_eq_of_le (Nat.le_of_lt_succ below) with earlier | rfl
    · exact records.unreadable offset above earlier
    · exact ⟨error, tape, records.tape_eq ▸ failed⟩

theorem run (tape : Tape) :
    ∃ spans mark, Records tape.bytes spans mark (Draft.run { tape := tape.rewind }) ∧
      (Draft.run { tape := tape.rewind }).tape.cursor = tape.bytes.length := by
  obtain ⟨⟨spans, mark, records⟩, ended⟩ := run_preserves
    (motive := fun draft => ∃ spans mark, Records tape.bytes spans mark draft)
    ⟨[], 0, start tape⟩
    (by
      rintro draft instruction moved ⟨spans, mark, records⟩ found
      obtain ⟨listed, later⟩ := records.addInstruction found
      exact ⟨listed, moved.cursor, later⟩)
    (by
      rintro draft error moved byte left ⟨spans, mark, records⟩ failed rest
      exact ⟨spans, mark, records.setAside failed rest⟩)
  refine ⟨spans, mark, records, ?_⟩
  have within := records.within
  rw [Tape.hasNext, decide_eq_false_iff_not, records.bytes] at ended
  omega

end Records

end Draft

/-- Reading ends with the program, and the lines of the listing divide the program in the
only way there is. -/
theorem Tape.listing_divides (tape : Tape) :
    (Draft.run { tape := tape.rewind }).tape.cursor = tape.bytes.length ∧
    ∃ spans : List Span,
      Span.Divide tape.bytes 0 tape.bytes.length spans ∧
      (∀ others, Span.Divide tape.bytes 0 tape.bytes.length others → others = spans) ∧
      tape.listing = String.join (spans.map fun span => span.statement.text ++ "\n") ∧
      Assembly.lines tape.listing = spans.map (·.statement.text.toList) := by
  obtain ⟨spans, mark, records, last⟩ := Draft.Records.run tape
  obtain ⟨flushed, lines, divide⟩ := records.flush
  rw [last] at divide
  refine ⟨last, flushed, divide, fun others again => again.unique divide, ?_, ?_⟩
  · rw [Tape.listing, lines, Listing.text, List.map_map]
    rfl
  · rw [Tape.listing, lines, Listing.lines_text, List.map_map]
    rfl

end ByteMachine
