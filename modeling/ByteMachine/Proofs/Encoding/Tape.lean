import ByteMachine.Proofs.Encoding.Decode

namespace ByteMachine

/-! Decoding from a tape: one instruction at the cursor, and a whole program. -/

namespace Tape

variable {tape moved : Tape} {decoded : Instruction}

theorem decode_eq_ok_iff :
    tape.decode = (.ok decoded, moved) ↔
      decoded.WellFormed ∧ decoded.encode <+: tape.rest ∧
        moved = { tape with cursor := tape.cursor + decoded.encode.length } := by
  unfold decode read
  constructor
  · intro found
    cases result : Decode.instruction tape.rest with
    | error error left =>
        rw [result] at found
        cases found
    | ok instruction left =>
        rw [result] at found
        cases found
        obtain ⟨valid, encoded⟩ := Decode.instruction_eq_ok result
        refine ⟨valid, ⟨left, encoded.symm⟩, ?_⟩
        have length := congrArg List.length encoded
        simp only [List.length_append] at length
        rw [show tape.rest.length - left.length = decoded.encode.length by omega]
  · intro ⟨valid, ⟨left, encoded⟩, advanced⟩
    subst advanced
    have result := Decode.instruction_encode valid left
    rw [encoded] at result
    have length := congrArg List.length encoded
    simp only [List.length_append] at length
    rw [result]
    simp only
    rw [show tape.rest.length - left.length = decoded.encode.length by omega]

theorem length_encode_pos (instruction : Instruction) :
    0 < instruction.encode.length :=
  List.length_pos_iff.mpr instruction.encode_ne_nil

theorem cursor_of_decode (read : tape.decode = (.ok decoded, moved)) :
    tape.cursor < moved.cursor ∧ moved.cursor ≤ tape.bytes.length := by
  obtain ⟨-, encoded, rfl⟩ := decode_eq_ok_iff.mp read
  have positive := length_encode_pos decoded
  have within := encoded.length_le
  rw [length_rest] at within
  constructor
  · exact Nat.lt_add_of_pos_right positive
  · change tape.cursor + decoded.encode.length ≤ tape.bytes.length
    omega

/-- Encoding an instruction gives back the very bytes that it was decoded from. -/
theorem encode_of_decode (read : tape.decode = (.ok decoded, moved)) :
    tape.cursor < moved.cursor ∧ moved.cursor ≤ tape.bytes.length ∧
      moved.bytes = tape.bytes ∧
      decoded.encode = tape.bytes.extract tape.cursor moved.cursor := by
  obtain ⟨forward, within⟩ := cursor_of_decode read
  obtain ⟨-, encoded, rfl⟩ := decode_eq_ok_iff.mp read
  refine ⟨forward, within, rfl, ?_⟩
  have taken := List.prefix_iff_eq_take.mp encoded
  rw [List.extract_eq_take_drop, Nat.add_sub_cancel_left]
  exact taken

theorem encode_of_decode_ref_word :
    let tape : Tape := ⟨[0x07, 0xff, 0xc0, 0xc3, 0x20, 0xb0, 0xc3], 1⟩
    let decoded : Instruction := .move (.ref (some .word) (.literal 0x20)) .top
    tape.decode = (.ok decoded, { tape with cursor := 6 }) ∧
      decoded.encode = tape.bytes.extract 1 6 := by
  have read : Tape.decode ⟨[0x07, 0xff, 0xc0, 0xc3, 0x20, 0xb0, 0xc3], 1⟩ =
      (.ok (.move (.ref (some .word) (.literal 0x20)) .top),
        ⟨[0x07, 0xff, 0xc0, 0xc3, 0x20, 0xb0, 0xc3], 6⟩) := rfl
  exact ⟨read, (encode_of_decode read).2.2.2⟩

/-- Reads instruction after instruction up to the end of the program, or up to
the first that cannot be read. -/
def decodeAll (tape : Tape) : Except DecodeError (List Instruction) :=
  if tape.hasNext then
    match _read : tape.decode with
    | (.ok instruction, moved) => do
        let later ← decodeAll moved
        return instruction :: later
    | (.error error, _) => .error error
  else .ok []
  termination_by tape.bytes.length - tape.cursor
  decreasing_by
    obtain ⟨forward, within⟩ := cursor_of_decode _read
    have same : moved.bytes = tape.bytes := by
      obtain ⟨-, -, rfl⟩ := decode_eq_ok_iff.mp _read
      rfl
    rw [same]
    omega

theorem hasNext_eq_false_iff : tape.hasNext = false ↔ tape.rest = [] := by
  simp [hasNext, rest]

theorem decodeAll_of_rest_nil (ended : tape.rest = []) : tape.decodeAll = .ok [] := by
  rw [decodeAll, hasNext_eq_false_iff.mpr ended]
  rfl

theorem decodeAll_of_decode (read : tape.decode = (.ok decoded, moved)) :
    tape.decodeAll = (moved.decodeAll).map (decoded :: ·) := by
  obtain ⟨forward, within⟩ := cursor_of_decode read
  have more : tape.hasNext = true := by
    simp only [hasNext, decide_eq_true_eq]
    omega
  rw [decodeAll, if_pos more]
  split
  · rename_i instruction other found
    rw [read] at found
    cases found
    rfl
  · rename_i error other found
    rw [read] at found
    cases found

theorem rest_eq_append (read : tape.decode = (.ok decoded, moved)) :
    tape.rest = decoded.encode ++ moved.rest := by
  obtain ⟨-, ⟨left, encoded⟩, rfl⟩ := decode_eq_ok_iff.mp read
  have behind : left = tape.rest.drop decoded.encode.length := by
    rw [← encoded, List.drop_left]
  rw [← encoded, behind]
  simp [rest]

/-- A program decodes to its end exactly if it is made of the encodings of
well-formed instructions. -/
theorem decodeAll_eq_ok_iff {program : List Instruction} :
    tape.decodeAll = .ok program ↔
      (∀ written ∈ program, written.WellFormed) ∧
        tape.rest = program.flatMap Instruction.encode := by
  constructor
  · intro read
    fun_induction decodeAll tape generalizing program with
    | case1 tape more instruction moved found induction =>
        cases later : moved.decodeAll with
        | error error =>
            rw [later] at read
            cases read
        | ok others =>
            rw [later] at read
            cases read
            obtain ⟨valid, encoded⟩ := induction later
            obtain ⟨first, -, -⟩ := decode_eq_ok_iff.mp found
            refine ⟨?_, by rw [rest_eq_append found, encoded, List.flatMap_cons]⟩
            intro written member
            rcases List.mem_cons.mp member with rfl | member
            · exact first
            · exact valid written member
    | case2 tape more error moved found => cases read
    | case3 tape ended =>
        cases read
        exact ⟨nofun, hasNext_eq_false_iff.mp (Bool.eq_false_iff.mpr ended)⟩
  · intro ⟨valid, encoded⟩
    induction program generalizing tape with
    | nil => exact decodeAll_of_rest_nil encoded
    | cons written program induction =>
        have read : tape.decode =
            (.ok written, { tape with cursor := tape.cursor + written.encode.length }) :=
          decode_eq_ok_iff.mpr ⟨valid written (by simp), ⟨_, encoded.symm⟩, rfl⟩
        have later := rest_eq_append read
        rw [encoded, List.flatMap_cons, List.append_cancel_left_eq] at later
        rw [decodeAll_of_decode read,
          induction (fun other member => valid other (by simp [member])) later.symm]
        rfl

/-- The decoder accepts exactly the well-formed instructions: it returns no other,
and it reads each back from its encoding, whatever comes before and behind it. -/
theorem decode_iff_wellFormed :
    (∀ (tape moved : Tape) (decoded : Instruction),
      tape.decode = (.ok decoded, moved) → decoded.WellFormed) ∧
    (∀ (written : Instruction) (before suffix : List Byte), written.WellFormed →
      decode ⟨before ++ written.encode ++ suffix, before.length⟩ =
        (.ok written,
          ⟨before ++ written.encode ++ suffix, before.length + written.encode.length⟩)) ∧
    ∀ program : List Instruction, (∀ written ∈ program, written.WellFormed) →
      decodeAll { bytes := program.flatMap Instruction.encode } = .ok program := by
  refine ⟨?_, ?_, ?_⟩
  · intro tape moved decoded read
    exact (decode_eq_ok_iff.mp read).1
  · intro written before suffix valid
    refine decode_eq_ok_iff.mpr ⟨valid, ⟨suffix, ?_⟩, rfl⟩
    simp [rest]
  · intro program valid
    exact decodeAll_eq_ok_iff.mpr ⟨valid, rfl⟩

theorem decode_iff_wellFormed_nested :
    let nested : Operand := Nat.repeat (Operand.ref none) 15 (.literal 0x20)
    let first : Instruction := .move nested (.sized .word .top)
    let program : List Instruction :=
      [first, .push (.literal 0xb0),
        .arithmetic .add (.literal 0xc3) (.ref (some .quadWord) .insPtr)]
    (∀ written ∈ program, written.WellFormed) ∧
      decode ⟨[0x07] ++ first.encode ++ [0xc3], 1⟩ =
        (.ok first, ⟨[0x07] ++ first.encode ++ [0xc3], 20⟩) ∧
      decodeAll { bytes := program.flatMap Instruction.encode } = .ok program :=
  ⟨by decide, decode_iff_wellFormed.2.1 _ [0x07] [0xc3] (by decide),
    decode_iff_wellFormed.2.2 _ (by decide)⟩

end Tape

namespace Instruction

/-- Some tape holds the instruction at its cursor. -/
def IsDecoded (written : Instruction) : Prop :=
  ∃ tape moved : Tape, tape.decode = (.ok written, moved)

theorem isDecoded_iff {written : Instruction} :
    written.IsDecoded ↔ written.WellFormed := by
  constructor
  · rintro ⟨tape, moved, read⟩
    exact (Tape.decode_eq_ok_iff.mp read).1
  · intro valid
    exact ⟨{ bytes := written.encode }, _,
      Tape.decode_eq_ok_iff.mpr ⟨valid, List.prefix_refl _, rfl⟩⟩

end Instruction

end ByteMachine
