import ByteMachine.CommandLine.Command
import ByteMachine.Proofs.Assembly.Numeral

namespace ByteMachine.CommandLine

/-! The language of the options of the run command: which arguments are options, what they set,
and why others are refused. A step count takes the word behind it, whatever that word is, so
arguments are divided into options in one way at most. -/

/-- The text is a step count: decimal digits, perhaps behind a plus sign, of a number of at
most 64 bits. -/
def Counts (text : String) (steps : Nat) : Prop :=
  steps < 2 ^ 64 ∧ (Text.IsNumeral 10 text.toList steps ∨
    ∃ digits, text.toList = '+' :: digits ∧ Text.IsNumeral 10 digits steps)

theorem counts_iff {text : String} {steps : Nat} :
    Counts text steps ↔ Text.numeral? 10 text.toList = some steps :=
  (Text.numeral?_eq_some_iff (by decide)).symm

theorem Counts.unique {text : String} {steps other : Nat} (counts : Counts text steps)
    (again : Counts text other) : steps = other := by
  rw [counts_iff] at counts again
  exact Option.some.inj (counts.symm.trans again)

/-- An option with its argument, if it has one. -/
inductive RunOption where
  | dump
  | maxSteps (text : String) (steps : Nat) (counts : Counts text steps)

namespace RunOption

def words : RunOption → List String
  | dump => ["--dump"]
  | maxSteps text _ _ => ["--max-steps", text]

def steps? : RunOption → Option Nat
  | dump => none
  | maxSteps _ steps _ => some steps

def set (options : RunOptions) : RunOption → RunOptions
  | dump => { options with dump := true }
  | maxSteps _ steps _ => { options with maxSteps := some steps }

theorem dump_set (options : RunOptions) (option : RunOption) :
    (set options option).dump = true ↔ options.dump = true ∨ dump = option := by
  cases option with
  | dump => simp [set]
  | maxSteps text steps counts => simp [set]

theorem maxSteps_set (options : RunOptions) (option : RunOption) :
    (set options option).maxSteps = option.steps?.or options.maxSteps := by
  cases option with
  | dump => rfl
  | maxSteps text steps counts => rfl

/-- The first word tells which option it is, and whether a count belongs to it. -/
theorem words_append_inj {option other : RunOption} {rest left : List String}
    (same : option.words ++ rest = other.words ++ left) : option = other ∧ rest = left := by
  cases option with
  | dump =>
      cases other with
      | dump => exact ⟨rfl, (List.cons.inj same).2⟩
      | maxSteps text steps counts => exact absurd (List.cons.inj same).1 (by decide)
  | maxSteps text steps counts =>
      cases other with
      | dump => exact absurd (List.cons.inj same).1 (by decide)
      | maxSteps otherText otherSteps again =>
          obtain ⟨rfl, behind⟩ := List.cons.inj (List.cons.inj same).2
          -- The number is part of the option, and its text determines it.
          obtain rfl := counts.unique again
          exact ⟨rfl, behind⟩

theorem flatMap_words_inj {chunks others : List RunOption}
    (same : chunks.flatMap words = others.flatMap words) : chunks = others := by
  have nonempty : ∀ option : RunOption, option.words ≠ [] := by
    intro option
    cases option <;> exact List.cons_ne_nil _ _
  induction chunks generalizing others with
  | nil =>
      cases others with
      | nil => rfl
      | cons other others =>
          have short := (List.append_eq_nil_iff.mp same.symm).1
          exact absurd short (nonempty other)
  | cons option chunks induction =>
      cases others with
      | nil =>
          have short := (List.append_eq_nil_iff.mp same).1
          exact absurd short (nonempty option)
      | cons other others =>
          obtain ⟨rfl, behind⟩ := words_append_inj same
          rw [induction behind]

end RunOption

/-- No option starts here, and the error says why. -/
inductive Refused : List String → OptionError → Prop where
  | missing : Refused ["--max-steps"] .missingCount
  | invalid {text : String} {rest : List String} (uncounted : ∀ steps, ¬ Counts text steps) :
      Refused ("--max-steps" :: text :: rest) (.invalidCount text)
  | unknown {word : String} {rest : List String} (plain : word ≠ "--dump")
      (other : word ≠ "--max-steps") : Refused (word :: rest) (.unknownOption word)

namespace RunOptions

variable {options : RunOptions} {arguments rest : List String} {error : OptionError}

theorem read_words (options : RunOptions) (option : RunOption) (rest : List String) :
    read options (option.words ++ rest) = read (option.set options) rest := by
  cases option with
  | dump => rfl
  | maxSteps text steps counts =>
      change read options ("--max-steps" :: text :: rest) = _
      rw [read, counts_iff.mp counts]
      rfl

/-- Options in front of other arguments are read one by one. -/
theorem read_flatMap_words (options : RunOptions) (chunks : List RunOption)
    (rest : List String) :
    read options (chunks.flatMap RunOption.words ++ rest) =
      read (chunks.foldl RunOption.set options) rest := by
  induction chunks generalizing options with
  | nil => rfl
  | cons option chunks induction =>
      rw [List.flatMap_cons, List.append_assoc, read_words, induction]
      rfl

theorem read_of_refused (refused : Refused rest error) : read options rest = .error error := by
  cases refused with
  | missing => rfl
  | @invalid text rest uncounted =>
      have unread : Text.numeral? 10 text.toList = none := by
        rw [Option.eq_none_iff_forall_ne_some]
        intro steps found
        exact uncounted steps (counts_iff.mpr found)
      rw [read, unread]
  | unknown plain other =>
      rw [read]
      · exact plain
      · intro alone
        exact absurd alone other
      · intro text rest first
        exact absurd first other

/-- Any arguments start with options, up to the end or to where none starts. -/
theorem divides (arguments : List String) :
    ∃ (chunks : List RunOption) (rest : List String),
      arguments = chunks.flatMap RunOption.words ++ rest ∧
        (rest = [] ∨ ∃ error, Refused rest error) := by
  fun_induction read {} arguments with
  | case1 options => exact ⟨[], [], rfl, .inl rfl⟩
  | case2 options rest induction =>
      obtain ⟨chunks, left, rfl, stops⟩ := induction
      exact ⟨.dump :: chunks, left, rfl, stops⟩
  | case3 options => exact ⟨[], _, rfl, .inr ⟨_, .missing⟩⟩
  | case4 options text rest steps found induction =>
      obtain ⟨chunks, left, rfl, stops⟩ := induction
      exact ⟨.maxSteps text steps (counts_iff.mpr found) :: chunks, left, rfl, stops⟩
  | case5 options text rest unread =>
      have uncounted : ∀ steps, ¬ Counts text steps := by
        intro steps counts
        rw [counts_iff.mp counts] at unread
        cases unread
      exact ⟨[], _, rfl, .inr ⟨_, .invalid uncounted⟩⟩
  | case6 options word rest plain alone counted =>
      have other : word ≠ "--max-steps" := by
        -- Such a word has a case of its own, whether another one follows or not.
        intro same
        cases rest with
        | nil => exact alone same rfl
        | cons text rest => exact counted text rest same rfl
      exact ⟨[], _, rfl, .inr ⟨_, .unknown plain other⟩⟩

theorem ofArguments_flatMap_words (chunks : List RunOption) :
    ofArguments (chunks.flatMap RunOption.words) = .ok (chunks.foldl RunOption.set {}) := by
  have whole := read_flatMap_words {} chunks []
  rwa [List.append_nil] at whole

theorem ofArguments_of_refused (chunks : List RunOption) (refused : Refused rest error) :
    ofArguments (chunks.flatMap RunOption.words ++ rest) = .error error :=
  (read_flatMap_words {} chunks rest).trans (read_of_refused refused)

theorem exists_ok_iff :
    (∃ options, ofArguments arguments = .ok options) ↔
      ∃ chunks : List RunOption, arguments = chunks.flatMap RunOption.words := by
  constructor
  · rintro ⟨options, read⟩
    obtain ⟨chunks, rest, rfl, rfl | ⟨error, refused⟩⟩ := divides arguments
    · exact ⟨chunks, List.append_nil _⟩
    · rw [ofArguments_of_refused chunks refused] at read
      cases read
  · rintro ⟨chunks, rfl⟩
    exact ⟨_, ofArguments_flatMap_words chunks⟩

theorem ofArguments_eq_error_iff :
    ofArguments arguments = .error error ↔
      ∃ (chunks : List RunOption) (rest : List String),
        arguments = chunks.flatMap RunOption.words ++ rest ∧ Refused rest error := by
  constructor
  · intro failed
    obtain ⟨chunks, rest, rfl, rfl | ⟨other, refused⟩⟩ := divides arguments
    · rw [List.append_nil, ofArguments_flatMap_words] at failed
      cases failed
    · rw [ofArguments_of_refused chunks refused] at failed
      cases failed
      exact ⟨chunks, rest, rfl, refused⟩
  · rintro ⟨chunks, rest, rfl, refused⟩
    exact ofArguments_of_refused chunks refused

theorem dump_foldl_set (chunks : List RunOption) (options : RunOptions) :
    (chunks.foldl RunOption.set options).dump = true ↔
      options.dump = true ∨ RunOption.dump ∈ chunks := by
  induction chunks generalizing options with
  | nil => simp
  | cons option chunks induction =>
      rw [List.foldl_cons, induction, RunOption.dump_set, List.mem_cons, or_assoc]

/-- A later count replaces an earlier one. -/
theorem maxSteps_foldl_set (chunks : List RunOption) (options : RunOptions) :
    (chunks.foldl RunOption.set options).maxSteps =
      (chunks.filterMap RunOption.steps?).getLast?.or options.maxSteps := by
  induction chunks generalizing options with
  | nil => rfl
  | cons option chunks induction =>
      rw [List.foldl_cons, induction, RunOption.maxSteps_set]
      cases option with
      | dump => rfl
      | maxSteps text steps counts =>
          rw [List.filterMap_cons, RunOption.steps?, List.getLast?_cons]
          cases (chunks.filterMap RunOption.steps?).getLast? <;> rfl

end RunOptions

/-- Options that are refused end the session before a file is read. -/
theorem session_of_options_error {arguments : List String} {error : OptionError}
    (failed : RunOptions.ofArguments arguments = .error error) (input : String) :
    session ("run" :: input :: arguments) =
      .exit { code := .failure, stderr := error.message } := by
  change run (input :: arguments) = _
  rw [run, failed]
  rfl

/-- Arguments are accepted just if they can be divided into options, which is possible in one way
at most. Then the machine is dumped if one of the options says so, and the last step count holds.
All other arguments are refused with the exit code of a failure, before a file is read, and the
error is about what comes behind the last option. -/
theorem options_language (arguments : List String) :
    ((∃ options, RunOptions.ofArguments arguments = .ok options) ↔
      ∃ chunks : List RunOption, arguments = chunks.flatMap RunOption.words) ∧
    (∀ chunks others : List RunOption, arguments = chunks.flatMap RunOption.words →
      arguments = others.flatMap RunOption.words → chunks = others) ∧
    (∀ (options : RunOptions) (chunks : List RunOption),
      RunOptions.ofArguments arguments = .ok options →
      arguments = chunks.flatMap RunOption.words →
      (options.dump = true ↔ RunOption.dump ∈ chunks) ∧
        options.maxSteps = (chunks.filterMap RunOption.steps?).getLast?) ∧
    ((¬∃ chunks : List RunOption, arguments = chunks.flatMap RunOption.words) →
      ∃ error, RunOptions.ofArguments arguments = .error error ∧ ∀ input, ∃ report : Report,
        session ("run" :: input :: arguments) = .exit report ∧ report.code.toNat = 1 ∧
          report.stdout = "" ∧ report.stderr = error.message) ∧
    ∀ error, RunOptions.ofArguments arguments = .error error ↔
      ∃ (chunks : List RunOption) (rest : List String),
        arguments = chunks.flatMap RunOption.words ++ rest ∧ Refused rest error := by
  refine ⟨RunOptions.exists_ok_iff, ?_, ?_, ?_, fun error => RunOptions.ofArguments_eq_error_iff⟩
  · intro chunks others divided again
    exact RunOption.flatMap_words_inj (divided.symm.trans again)
  · rintro options chunks read rfl
    rw [RunOptions.ofArguments_flatMap_words] at read
    obtain rfl := Except.ok.inj read
    constructor
    · simp [RunOptions.dump_foldl_set]
    · rw [RunOptions.maxSteps_foldl_set, Option.or_none]
  · intro undivided
    cases answer : RunOptions.ofArguments arguments with
    | ok options => exact absurd (RunOptions.exists_ok_iff.mp ⟨options, answer⟩) undivided
    | error error =>
        refine ⟨error, rfl, fun input => ?_⟩
        exact ⟨_, session_of_options_error answer input, rfl, rfl, rfl⟩

/-- A count that is given twice, and an option in the place of a count. -/
theorem options_language_misplaced :
    (∃ options, RunOptions.ofArguments ["--max-steps", "3", "--dump", "--max-steps", "+12"] =
      .ok options ∧ options.dump = true ∧ options.maxSteps = some 12) ∧
    (¬∃ chunks : List RunOption,
      ["--max-steps", "--dump"] = chunks.flatMap RunOption.words) ∧
    ∃ error, RunOptions.ofArguments ["--max-steps", "--dump"] = .error error ∧
      ∀ input, ∃ report : Report,
        session ["run", input, "--max-steps", "--dump"] = .exit report ∧
          report.code.toNat = 1 ∧ report.stdout = "" ∧ report.stderr = error.message := by
  have three : Counts "3" 3 := counts_iff.mpr rfl
  have twelve : Counts "+12" 12 := counts_iff.mpr rfl
  let chunks : List RunOption := [.maxSteps "3" 3 three, .dump, .maxSteps "+12" 12 twelve]
  have repeated := options_language ["--max-steps", "3", "--dump", "--max-steps", "+12"]
  have misplaced := options_language ["--max-steps", "--dump"]
  have undivided : ¬∃ chunks : List RunOption,
      ["--max-steps", "--dump"] = chunks.flatMap RunOption.words := by
    intro divided
    obtain ⟨options, read⟩ := misplaced.1.mpr divided
    cases read
  refine ⟨?_, undivided, misplaced.2.2.2.1 undivided⟩
  obtain ⟨options, read⟩ := repeated.1.mpr ⟨chunks, rfl⟩
  obtain ⟨dumps, counted⟩ := repeated.2.2.1 options chunks read rfl
  exact ⟨options, read, dumps.mpr (by simp [chunks]), counted⟩

end ByteMachine.CommandLine
