import ByteMachine.CommandLine.Directory
import ByteMachine.Proofs.Answer

namespace ByteMachine.CommandLine

/-! What writing a file changes. A path leads through folders only, so a file that appears at
its end or is replaced there changes nothing at any other path. -/

namespace Path

variable {path above : Path} {name : String}

theorem prefix_parent (before : above <+: path.parent) :
    above = path.parent ∨ above <+: path := by
  revert before
  unfold parent
  split
  · exact List.prefix_concat_iff.mp
  · split
    · exact .inr
    · intro before
      exact .inr (before.trans (List.dropLast_prefix path))

/-- A path goes on by one name, or leads to a folder that it has led through before. -/
theorem prefix_enter (before : above <+: path.enter name) :
    above = path.enter name ∨ above <+: path := by
  revert before
  unfold enter
  split
  · exact .inr
  · split
    · exact prefix_parent
    · exact List.prefix_concat_iff.mp

end Path

namespace Directory

variable {directory written : Directory} {path next : Path} {name text : String}
  {content : List Byte}

theorem find?_eq_ok_iff {found : Option Entry} :
    directory.find? path name = .ok found ↔
      name.utf8ByteSize ≤ Route.nameLimit ∧ directory.entry? (path.enter name) = found := by
  unfold find?
  by_cases short : name.utf8ByteSize ≤ Route.nameLimit
  · simp [short]
  · simp [short]

theorem follow_eq_ok_iff :
    directory.follow path name = .ok next ↔
      name.utf8ByteSize ≤ Route.nameLimit ∧
        directory.entry? (path.enter name) = some .folder ∧ next = path.enter name := by
  unfold follow
  rw [answer_bind_eq_ok]
  constructor
  · rintro ⟨found, looked, followed⟩
    obtain ⟨short, present⟩ := find?_eq_ok_iff.mp looked
    cases found with
    | none => cases followed
    | some entry =>
        cases entry with
        | file content => cases followed
        | folder =>
            cases followed
            exact ⟨short, present, rfl⟩
  · rintro ⟨short, present, rfl⟩
    exact ⟨some .folder, find?_eq_ok_iff.mpr ⟨short, present⟩, rfl⟩

/-- The path is a folder, and so is whatever it leads through. -/
def Opens (directory : Directory) (path : Path) : Prop :=
  ∀ above, above <+: path → directory.entry? above = some .folder

theorem opens_start (directory : Directory) (chars : List Char) :
    directory.Opens (Route.ofChars chars).start := by
  intro above before
  unfold Route.ofChars at before
  dsimp only at before
  split at before
  · rcases List.prefix_cons_iff.mp before with rfl | ⟨rest, rfl, empty⟩
    · rfl
    · obtain rfl := List.prefix_nil.mp empty
      unfold entry?
      simp
  · obtain rfl := List.prefix_nil.mp before
    rfl

theorem Opens.follow (opens : directory.Opens path)
    (followed : directory.follow path name = .ok next) : directory.Opens next := by
  obtain ⟨-, present, rfl⟩ := follow_eq_ok_iff.mp followed
  intro above before
  rcases Path.prefix_enter before with rfl | earlier
  · exact present
  · exact opens above earlier

theorem Opens.foldlM_follow {names : List String} (opens : directory.Opens path)
    (followed : names.foldlM directory.follow path = .ok next) : directory.Opens next := by
  induction names generalizing path with
  | nil =>
      cases followed
      exact opens
  | cons name names induction =>
      rw [List.foldlM_cons] at followed
      obtain ⟨entered, first, others⟩ := answer_bind_eq_ok.mp followed
      exact induction (opens.follow first) others

theorem resolve_eq_name_iff {slash : Bool} :
    directory.resolve text = .ok (.name path name slash) ↔
      ∃ route, Route.ofText text = .ok route ∧ route.names.getLast? = some name ∧
        route.names.dropLast.foldlM directory.follow route.start = .ok path ∧
        ¬(name = "." ∨ name = "..") ∧ route.slash = slash := by
  unfold resolve
  rw [answer_bind_eq_ok]
  refine exists_congr fun route => and_congr_right fun routed => ?_
  cases last : route.names.getLast? with
  | none => simp [pure, Except.pure]
  | some last =>
      dsimp only
      rw [answer_bind_eq_ok]
      constructor
      · rintro ⟨folder, followed, answered⟩
        split at answered
        · cases answered
        · rename_i plain
          cases answered
          exact ⟨rfl, followed, plain, rfl⟩
      · rintro ⟨⟨⟩, followed, plain, rfl⟩
        exact ⟨path, followed, if_neg plain⟩

theorem opens_of_resolve {slash : Bool}
    (resolved : directory.resolve text = .ok (.name path name slash)) :
    directory.Opens path := by
  obtain ⟨route, routed, -, followed, -⟩ := resolve_eq_name_iff.mp resolved
  unfold Route.ofText at routed
  split at routed
  · cases routed
  · split at routed
    · cases routed
      exact (directory.opens_start text.toList).foldlM_follow followed
    · cases routed

theorem enter_of_resolve {slash : Bool}
    (resolved : directory.resolve text = .ok (.name path name slash)) :
    path.enter name = path ++ [name] := by
  obtain ⟨route, -, -, -, plain, -⟩ := resolve_eq_name_iff.mp resolved
  rw [not_or] at plain
  rw [Path.enter, if_neg plain.1, if_neg plain.2]

section Folders

variable (kept : ∀ path, directory.entry? path = some .folder → written.entry? path = some .folder)

include kept

theorem foldlM_follow_of_folders {names : List String}
    (followed : names.foldlM directory.follow path = .ok next) :
    names.foldlM written.follow path = .ok next := by
  induction names generalizing path with
  | nil => exact followed
  | cons name names induction =>
      rw [List.foldlM_cons] at followed ⊢
      obtain ⟨entered, first, others⟩ := answer_bind_eq_ok.mp followed
      obtain ⟨short, present, rfl⟩ := follow_eq_ok_iff.mp first
      have again := follow_eq_ok_iff.mpr ⟨short, kept _ present, rfl⟩
      exact answer_bind_eq_ok.mpr ⟨_, again, induction others⟩

/-- A name in a folder is found again as long as all folders stay. -/
theorem resolve_of_folders {slash : Bool}
    (resolved : directory.resolve text = .ok (.name path name slash)) :
    written.resolve text = .ok (.name path name slash) := by
  obtain ⟨route, routed, last, followed, plain⟩ := resolve_eq_name_iff.mp resolved
  exact resolve_eq_name_iff.mpr
    ⟨route, routed, last, foldlM_follow_of_folders kept followed, plain⟩

end Folders

section Replace

variable (path : Path) (entry : Entry) (entries : List (Path × Entry))

theorem lookup_cons_of_ne {other : Path} (different : other ≠ path) :
    ((path, entry) :: entries).lookup other = entries.lookup other := by
  rw [List.lookup_cons, beq_eq_false_iff_ne.mpr different]

theorem lookup_replace_self : (replace path entry entries).lookup path = some entry := by
  induction entries with
  | nil => exact List.lookup_cons_self
  | cons first entries induction =>
      obtain ⟨present, held⟩ := first
      unfold replace
      by_cases here : present = path
      · rw [if_pos here, List.lookup_cons_self]
      · rw [if_neg here, lookup_cons_of_ne _ _ _ (Ne.symm here), induction]

theorem lookup_replace_of_ne {other : Path} (different : other ≠ path) :
    (replace path entry entries).lookup other = entries.lookup other := by
  induction entries with
  | nil => exact lookup_cons_of_ne _ _ _ different
  | cons first entries induction =>
      obtain ⟨present, held⟩ := first
      unfold replace
      by_cases here : present = path
      · subst here
        rw [if_pos rfl, lookup_cons_of_ne _ _ _ different, lookup_cons_of_ne _ _ _ different]
      · rw [if_neg here, List.lookup_cons, List.lookup_cons, induction]

/-- The paths with an entry are those from before and the one replaced. -/
theorem any_replace (accepts : Path → Bool) :
    ((replace path entry entries).any fun (other, _) => accepts other) =
      (accepts path || entries.any fun (other, _) => accepts other) := by
  induction entries with
  | nil => simp [replace]
  | cons first entries induction =>
      obtain ⟨present, held⟩ := first
      unfold replace
      by_cases here : present = path
      · subst here
        simp
      · rw [if_neg here]
        simp [induction, Bool.or_left_comm]

end Replace

/-- A file is written in a folder, where there is none or another file. -/
theorem write_eq_ok (done : directory.write text content = .ok written) :
    ∃ folder name, directory.resolve text = .ok (.name folder name false) ∧
      name.utf8ByteSize ≤ Route.nameLimit ∧
      directory.entry? (folder ++ [name]) ≠ some .folder ∧
      written = ⟨replace (folder ++ [name]) (.file content) directory.entries⟩ := by
  unfold write at done
  obtain ⟨target, resolved, done⟩ := answer_bind_eq_ok.mp done
  cases target with
  | folder => cases done
  | name folder name slash =>
      cases slash with
      | true => cases done
      | false =>
          obtain ⟨found, looked, done⟩ := answer_bind_eq_ok.mp done
          obtain ⟨short, present⟩ := find?_eq_ok_iff.mp looked
          rw [enter_of_resolve resolved] at present done
          refine ⟨folder, name, resolved, short, ?_⟩
          cases found with
          | none =>
              cases done
              exact ⟨by rw [present]; nofun, rfl⟩
          | some entry =>
              cases entry with
              | folder => cases done
              | file old =>
                  cases done
                  exact ⟨by rw [present]; nofun, rfl⟩

theorem read_of_entry? (resolved : directory.resolve text = .ok (.name path name false))
    (short : name.utf8ByteSize ≤ Route.nameLimit)
    (present : directory.entry? (path ++ [name]) = some (.file content)) :
    directory.read text = .ok content := by
  rw [← enter_of_resolve resolved] at present
  have looked := find?_eq_ok_iff.mpr ⟨short, present⟩
  unfold read
  refine answer_bind_eq_ok.mpr ⟨_, resolved, ?_⟩
  exact answer_bind_eq_ok.mpr ⟨_, looked, rfl⟩

theorem isAbove_or_root_eq_false (plain : directory.entry? path ≠ some .folder) :
    (path.isAbove || path = ["/"]) = false := by
  unfold entry? at plain
  cases above : path.isAbove || path = ["/"] with
  | false => rfl
  | true =>
      rw [above] at plain
      exact absurd rfl plain

theorem entry?_replace_self {entry : Entry} (plain : directory.entry? path ≠ some .folder) :
    entry? ⟨replace path entry directory.entries⟩ path = some entry := by
  unfold entry?
  rw [isAbove_or_root_eq_false plain]
  dsimp only
  rw [lookup_replace_self]
  rfl

/-- Only a path that leads to the new entry could become a folder by it, and such a path is
one already. -/
theorem entry?_replace_of_ne {entry : Entry} {other : Path} (opens : directory.Opens path)
    (different : other ≠ path ++ [name]) :
    entry? ⟨replace (path ++ [name]) entry directory.entries⟩ other =
      directory.entry? other := by
  by_cases before : other <+: path
  · have present := opens other before
    rw [present]
    unfold entry? at present ⊢
    dsimp only
    rw [lookup_replace_of_ne _ _ _ different, any_replace,
      List.isPrefixOf_iff_prefix.mpr (before.trans (List.prefix_append path [name])),
      Bool.true_or]
    cases above : (other.isAbove || other = ["/"]) with
    | true => rfl
    | false =>
        rw [above] at present
        cases found : directory.entries.lookup other with
        | none => rfl
        | some held => simpa [found] using present
  · have apart : other.isPrefixOf (path ++ [name]) = false := by
      rw [← Bool.not_eq_true, List.isPrefixOf_iff_prefix, List.prefix_concat_iff]
      exact fun leads => leads.elim different before
    unfold entry?
    dsimp only
    rw [lookup_replace_of_ne _ _ _ different, any_replace, apart, Bool.false_or]

/-- The text names what a folder has at the path. -/
def Names (directory : Directory) (text : String) (path : Path) : Prop :=
  ∃ folder name, directory.resolve text = .ok (.name folder name false) ∧
    path = folder ++ [name]

/-- The second directory has a file with the content where the text says, and anywhere else
what the first one has. -/
structure Written (directory : Directory) (text : String) (content : List Byte)
    (written : Directory) : Prop where
  reads : written.read text = .ok content
  only : ∃ path, directory.Names text path ∧ written.entry? path = some (.file content) ∧
    ∀ other, other ≠ path → written.entry? other = directory.entry? other

theorem written_of_write (done : directory.write text content = .ok written) :
    directory.Written text content written := by
  obtain ⟨folder, name, resolved, short, plain, rfl⟩ := write_eq_ok done
  have here : entry? ⟨replace (folder ++ [name]) (.file content) directory.entries⟩
      (folder ++ [name]) = some (.file content) :=
    entry?_replace_self plain
  have elsewhere (other : Path) (different : other ≠ folder ++ [name]) :
      entry? ⟨replace (folder ++ [name]) (.file content) directory.entries⟩ other =
        directory.entry? other :=
    entry?_replace_of_ne (opens_of_resolve resolved) different
  constructor
  · -- The folders on the way are all at other paths than the file.
    apply read_of_entry? (resolve_of_folders _ resolved) short here
    intro path present
    rw [elsewhere, present]
    rintro rfl
    exact plain present
  · exact ⟨folder ++ [name], ⟨folder, name, resolved, rfl⟩, here, elsewhere⟩

end Directory

end ByteMachine.CommandLine
