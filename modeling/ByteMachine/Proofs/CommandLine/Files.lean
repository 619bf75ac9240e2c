import ByteMachine.CommandLine.Command
import ByteMachine.Proofs.CommandLine.Directory

namespace ByteMachine.CommandLine

/-! Which files a command changes. All commands but one only read; an assembly that succeeds
writes its program, and this is the last thing that it does. -/

section Output

variable {input output : String} {options : List String}

/-- The name of the program that an input is assembled to: the one given by the option behind
the input, or else the input's with its extension replaced, or with one more. -/
inductive OutputNamed (input : String) : List String → String → Prop where
  | given (output : String) (rest : List String) :
      OutputNamed input ("-o" :: output :: rest) output
  | replaced {options : List String} {stem : String}
      (absent : ∀ output rest, options ≠ "-o" :: output :: rest)
      (named : input = stem ++ ".lasm") : OutputNamed input options (stem ++ ".luxb")
  | extended {options : List String}
      (absent : ∀ output rest, options ≠ "-o" :: output :: rest)
      (named : ∀ stem, input ≠ stem ++ ".lasm") :
      OutputNamed input options (input ++ ".luxb")

theorem defaultOutput_append (stem : String) :
    defaultOutput (stem ++ ".lasm") = stem ++ ".luxb" := by
  have ends : ".lasm".toList.isSuffixOf (stem ++ ".lasm").toList = true := by
    rw [List.isSuffixOf_iff_suffix, String.toList_append]
    exact List.suffix_append _ _
  unfold defaultOutput
  dsimp only
  rw [if_pos ends, String.toList_append, List.length_append, Nat.add_sub_cancel,
    List.take_left, String.ofList_toList]

theorem defaultOutput_of_ne (named : ∀ stem, input ≠ stem ++ ".lasm") :
    defaultOutput input = input ++ ".luxb" := by
  unfold defaultOutput
  dsimp only
  rw [if_neg, String.ofList_toList]
  rw [List.isSuffixOf_iff_suffix]
  rintro ⟨stem, shape⟩
  apply named (String.ofList stem)
  rw [← String.toList_inj, String.toList_append, String.toList_ofList, shape]

theorem outputName_of_absent (absent : ∀ output rest, options ≠ "-o" :: output :: rest) :
    outputName input options = defaultOutput input := by
  unfold outputName
  split
  · rename_i output rest
    exact absurd rfl (absent output rest)
  · rfl

theorem OutputNamed.outputName_eq (named : OutputNamed input options output) :
    outputName input options = output := by
  cases named with
  | given output rest => rfl
  | replaced absent named =>
      rw [outputName_of_absent absent, named, defaultOutput_append]
  | extended absent named => rw [outputName_of_absent absent, defaultOutput_of_ne named]

theorem outputNamed_outputName (input : String) (options : List String) :
    OutputNamed input options (outputName input options) := by
  by_cases given : ∃ output rest, options = "-o" :: output :: rest
  · obtain ⟨output, rest, rfl⟩ := given
    exact .given output rest
  · have absent (output : String) (rest : List String) : options ≠ "-o" :: output :: rest :=
      fun shape => given ⟨output, rest, shape⟩
    rw [outputName_of_absent absent]
    by_cases named : ∃ stem, input = stem ++ ".lasm"
    · obtain ⟨stem, rfl⟩ := named
      rw [defaultOutput_append]
      exact .replaced absent rfl
    · have other (stem : String) : input ≠ stem ++ ".lasm" := fun shape => named ⟨stem, shape⟩
      rw [defaultOutput_of_ne other]
      exact .extended absent other

end Output

section Sessions

variable {limit : Nat} {directory after : Directory} {report : Report}
  {arguments options : List String} {input output : String} {program : List Byte}

/-- The session writes no file, whatever it is told. -/
inductive ReadsOnly : Session → Prop where
  | exit (report : Report) : ReadsOnly (.exit report)
  | readFile {path : String} {next : Except FileError (List Byte) → Session}
      (later : ∀ content, ReadsOnly (next content)) : ReadsOnly (.readFile path next)
  | settle {machine : Machine} {next : Machine → Session}
      (later : ∀ halted, ReadsOnly (next halted)) : ReadsOnly (.settle machine next)

theorem ReadsOnly.unchanged {session : Session} (readsOnly : ReadsOnly session)
    (ended : session.runIn limit directory = some (report, after)) : after = directory := by
  induction readsOnly with
  | exit report =>
      cases ended
      rfl
  | readFile later induction => exact induction _ ended
  | settle later induction =>
      unfold Session.runIn at ended
      dsimp only at ended
      split at ended
      · exact induction _ ended
      · cases ended

theorem readsOnly_fail (message : String) : ReadsOnly (fail message) :=
  .exit _

theorem readsOnly_disassemble (arguments : List String) : ReadsOnly (disassemble arguments) := by
  cases arguments with
  | nil => exact readsOnly_fail _
  | cons input rest =>
      apply ReadsOnly.readFile
      intro content
      cases content with
      | error error => exact readsOnly_fail _
      | ok content => exact .exit _

theorem readsOnly_runProgram (options : RunOptions) (program : List Byte) :
    ReadsOnly (runProgram options program) := by
  unfold runProgram
  dsimp only
  split
  · exact .exit _
  · exact .settle fun halted => .exit _

theorem readsOnly_run (arguments : List String) : ReadsOnly (run arguments) := by
  cases arguments with
  | nil => exact readsOnly_fail _
  | cons input rest =>
      unfold run
      dsimp only
      split
      · exact readsOnly_fail _
      · apply ReadsOnly.readFile
        intro content
        cases content with
        | error error => exact readsOnly_fail _
        | ok content => exact readsOnly_runProgram _ content

theorem readsOnly_session (other : arguments.head? ≠ some "assemble") :
    ReadsOnly (session arguments) := by
  unfold session
  split
  · exact readsOnly_fail _
  · exact absurd rfl other
  · exact readsOnly_disassemble _
  · exact readsOnly_run _
  · exact .exit _
  · exact .exit _
  · exact .exit _
  · exact readsOnly_fail _

/-- Whatever the session is told, it exits with one of the numbers. -/
inductive ExitsWith (codes : List Nat) : Session → Prop where
  | exit {report : Report} (known : report.code.toNat ∈ codes) : ExitsWith codes (.exit report)
  | readFile {path : String} {next : Except FileError (List Byte) → Session}
      (later : ∀ content, ExitsWith codes (next content)) : ExitsWith codes (.readFile path next)
  | writeFile {path : String} {content : List Byte} {next : Except FileError Unit → Session}
      (later : ∀ result, ExitsWith codes (next result)) :
      ExitsWith codes (.writeFile path content next)
  | settle {machine : Machine} {next : Machine → Session}
      (later : ∀ halted, ExitsWith codes (next halted)) : ExitsWith codes (.settle machine next)

theorem ExitsWith.code_mem {codes : List Nat} {session : Session}
    (exits : ExitsWith codes session)
    (ended : session.runIn limit directory = some (report, after)) :
    report.code.toNat ∈ codes := by
  induction exits generalizing directory with
  | exit known =>
      cases ended
      exact known
  | readFile later induction => exact induction _ ended
  | writeFile later induction =>
      unfold Session.runIn at ended
      split at ended
      · exact induction _ ended
      · exact induction _ ended
  | settle later induction =>
      unfold Session.runIn at ended
      dsimp only at ended
      split at ended
      · exact induction _ ended
      · cases ended

theorem exitsWith_fail (message : String) : ExitsWith [0, 1, 3, 4] (fail message) :=
  .exit (by simp [ExitCode.failure])

theorem exitsWith_assemble (arguments : List String) :
    ExitsWith [0, 1, 3, 4] (assemble arguments) := by
  cases arguments with
  | nil => exact exitsWith_fail _
  | cons input options =>
      apply ExitsWith.readFile
      intro content
      cases content.bind textOf with
      | error error => exact exitsWith_fail _
      | ok text =>
          unfold assembleTo
          dsimp only
          split
          · exact exitsWith_fail _
          · apply ExitsWith.writeFile
            intro result
            cases result with
            | error error => exact exitsWith_fail _
            | ok done => exact .exit (by simp [ExitCode.success])

theorem exitsWith_disassemble (arguments : List String) :
    ExitsWith [0, 1, 3, 4] (disassemble arguments) := by
  cases arguments with
  | nil => exact exitsWith_fail _
  | cons input rest =>
      apply ExitsWith.readFile
      intro content
      cases content with
      | error error => exact exitsWith_fail _
      | ok content => exact .exit (by simp [ExitCode.success])

theorem code_runReport (options : RunOptions) (machine : Machine) :
    (runReport options machine).code.toNat ∈ [0, 1, 3, 4] := by
  unfold runReport
  dsimp only
  cases machine.status with
  | faulted fault => simp [ExitCode.fault]
  | finished => simp [ExitCode.success]
  | running =>
      cases machine.tape.hasNext with
      | true => simp [ExitCode.exhausted]
      | false => simp [ExitCode.success]

theorem exitsWith_run (arguments : List String) : ExitsWith [0, 1, 3, 4] (run arguments) := by
  cases arguments with
  | nil => exact exitsWith_fail _
  | cons input rest =>
      unfold run
      dsimp only
      split
      · exact exitsWith_fail _
      · apply ExitsWith.readFile
        intro content
        cases content with
        | error error => exact exitsWith_fail _
        | ok content =>
            unfold runProgram
            dsimp only
            split
            · exact .exit (code_runReport _ _)
            · exact .settle fun halted => .exit (code_runReport _ halted)

theorem exitsWith_session (arguments : List String) :
    ExitsWith [0, 1, 3, 4] (session arguments) := by
  unfold session
  split
  · exact exitsWith_fail _
  · exact exitsWith_assemble _
  · exact exitsWith_disassemble _
  · exact exitsWith_run _
  · exact .exit (by simp [ExitCode.success])
  · exact .exit (by simp [ExitCode.success])
  · exact .exit (by simp [ExitCode.success])
  · exact exitsWith_fail _

/-- A text is read from the very bytes that it is encoded in. -/
theorem textOf_eq_ok_iff {content : List Byte} {text : String} :
    textOf content = .ok text ↔ content = text.toUTF8.data.toList := by
  unfold textOf String.fromUTF8?
  constructor
  · intro read
    split at read
    · rename_i found
      split at found
      · cases found
        cases read
        rfl
      · cases found
    · cases read
  · rintro rfl
    have same : ByteArray.mk text.toUTF8.data.toList.toArray = text.toUTF8 := rfl
    rw [dif_pos (same ▸ text.isValidUTF8)]
    rfl

theorem assembleTo_cases {text : String}
    (ended : (assembleTo output text).runIn limit directory = some (report, after)) :
    (report.code = .failure ∧ after = directory) ∨
      (report.code = .success ∧ ∃ program, Assembly.assemble text = .ok program ∧
        directory.write output program = .ok after) := by
  unfold assembleTo at ended
  cases assembled : Assembly.assemble text with
  | error error =>
      rw [assembled] at ended
      cases ended
      exact .inl ⟨rfl, rfl⟩
  | ok program =>
      rw [assembled] at ended
      unfold Session.runIn at ended
      cases written : directory.write output program with
      | error error =>
          rw [written] at ended
          cases ended
          exact .inl ⟨rfl, rfl⟩
      | ok changed =>
          rw [written] at ended
          cases ended
          exact .inr ⟨rfl, program, rfl, written⟩

theorem assembleTo_of_write {text : String} (assembled : Assembly.assemble text = .ok program)
    (written : directory.write output program = .ok after) :
    ∃ message, (assembleTo output text).runIn limit directory =
      some ({ code := .success, stderr := message }, after) := by
  simp [assembleTo, assembled, Session.runIn, written]

/-- The input is a text, which assembles to the program. -/
def Assembles (directory : Directory) (input : String) (program : List Byte) : Prop :=
  ∃ text : String, directory.read input = .ok text.toUTF8.data.toList ∧
    Assembly.assemble text = .ok program

theorem assemble_cases
    (ended : (assemble arguments).runIn limit directory = some (report, after)) :
    (report.code = .failure ∧ after = directory) ∨
      (report.code = .success ∧ ∃ input options program, arguments = input :: options ∧
        Assembles directory input program ∧
        directory.write (outputName input options) program = .ok after) := by
  cases arguments with
  | nil =>
      cases ended
      exact .inl ⟨rfl, rfl⟩
  | cons input options =>
      unfold assemble Session.runIn at ended
      dsimp only at ended
      cases read : (directory.read input).bind textOf with
      | error error =>
          rw [read] at ended
          cases ended
          exact .inl ⟨rfl, rfl⟩
      | ok text =>
          rw [read] at ended
          obtain ⟨content, found, decoded⟩ := answer_bind_eq_ok.mp read
          obtain rfl := textOf_eq_ok_iff.mp decoded
          rcases assembleTo_cases ended with failed | ⟨code, program, assembled, written⟩
          · exact .inl failed
          · exact .inr
              ⟨code, input, options, program, rfl, ⟨text, found, assembled⟩, written⟩

theorem assemble_of_write (limit : Nat) (assembles : Assembles directory input program)
    (written : directory.write (outputName input options) program = .ok after) :
    ∃ message, (assemble (input :: options)).runIn limit directory =
      some ({ code := .success, stderr := message }, after) := by
  obtain ⟨text, found, assembled⟩ := assembles
  have read : (directory.read input).bind textOf = .ok text :=
    answer_bind_eq_ok.mpr ⟨_, found, textOf_eq_ok_iff.mpr rfl⟩
  unfold assemble Session.runIn
  dsimp only
  rw [read]
  exact assembleTo_of_write assembled written

theorem session_of_head? (named : arguments.head? = some "assemble") :
    ∃ rest, arguments = "assemble" :: rest ∧ session arguments = assemble rest := by
  obtain ⟨rest, rfl⟩ := List.head?_eq_some_iff.mp named
  exact ⟨rest, rfl, rfl⟩

/-- A command that fails, and any command but an assembly, leaves the directory as it is. An
assembly succeeds just if its input is a text that assembles and its output can be written,
and then the output holds the program and every other path what it held before. -/
theorem files_changed_by_assembly
    (ended : (session arguments).runIn limit directory = some (report, after)) :
    report.code.toNat ∈ [0, 1, 3, 4] ∧
    (report.code.toNat ≠ 0 ∨ arguments.head? ≠ some "assemble" → after = directory) ∧
    (report.code.toNat = 0 → arguments.head? = some "assemble" →
      ∃ input options output program, arguments = "assemble" :: input :: options ∧
        OutputNamed input options output ∧ Assembles directory input program ∧
        directory.Written output program after) ∧
    ∀ input options output program, arguments = "assemble" :: input :: options →
      OutputNamed input options output → Assembles directory input program →
      (∃ written, directory.write output program = .ok written) →
      report.code.toNat = 0 := by
  refine ⟨?_, ?_, ?_, ?_⟩
  · exact (exitsWith_session arguments).code_mem ended
  · intro unchanged
    by_cases named : arguments.head? = some "assemble"
    · obtain ⟨rest, -, assembly⟩ := session_of_head? named
      rw [assembly] at ended
      rcases assemble_cases ended with ⟨-, same⟩ | ⟨code, -⟩
      · exact same
      · rw [code] at unchanged
        exact absurd unchanged (by simp [named, ExitCode.success])
    · exact (readsOnly_session named).unchanged ended
  · intro success named
    obtain ⟨rest, rfl, assembly⟩ := session_of_head? named
    rw [assembly] at ended
    rcases assemble_cases ended with
      ⟨code, -⟩ | ⟨-, input, options, program, rfl, assembles, written⟩
    · simp [code, ExitCode.failure] at success
    · exact ⟨input, options, _, program, rfl, outputNamed_outputName input options, assembles,
        Directory.written_of_write written⟩
  · rintro input options output program rfl named assembles ⟨written, done⟩
    obtain rfl := named.outputName_eq
    obtain ⟨message, success⟩ := assemble_of_write limit assembles done
    obtain ⟨rfl, -⟩ := Prod.mk.inj (Option.some.inj (success.symm.trans ended))
    rfl

/-- The output is the input, on another way. -/
theorem files_changed_by_assembly_alias :
    let directory :=
      Directory.ofFiles [("sub", .folder), ("a.lasm", .file [0x50, 0x4f, 0x50])]
    ∃ report after, (session ["assemble", "a.lasm", "-o", "sub/../a.lasm"]).runIn 0 directory =
        some (report, after) ∧
      report.code.toNat = 0 ∧ directory.Written "sub/../a.lasm" [0xfc] after := by
  intro directory
  let report : Report := { code := .success, stderr := "assembled 1 bytes -> sub/../a.lasm\n" }
  let after : Directory := ⟨[(["sub"], .folder), (["a.lasm"], .file [0xfc])]⟩
  have ended : (session ["assemble", "a.lasm", "-o", "sub/../a.lasm"]).runIn 0 directory =
      some (report, after) := by rfl
  refine ⟨report, after, ended, rfl, ?_⟩
  obtain ⟨input, options, output, program, shape, named, -, written⟩ :=
    (files_changed_by_assembly ended).2.2.1 rfl rfl
  cases shape
  obtain rfl := named.outputName_eq
  have read : after.read "sub/../a.lasm" = .ok [0xfc] := by rfl
  obtain rfl := Except.ok.inj (written.reads.symm.trans read)
  exact written

end Sessions

end ByteMachine.CommandLine
