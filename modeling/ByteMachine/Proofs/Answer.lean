namespace ByteMachine

/-! What the outcome of an answer says of the answers that it was made from. -/

variable {ε ε' α β : Type} {answer : Except ε α} {cause : ε}

theorem answer_bind_eq_ok {after : α → Except ε β} {result : β} :
    (answer >>= after) = .ok result ↔
      ∃ found, answer = .ok found ∧ after found = .ok result := by
  constructor
  · intro done
    cases answer with
    | error other => cases done
    | ok found => exact ⟨found, rfl, done⟩
  · rintro ⟨found, rfl, done⟩
    exact done

theorem answer_bind_eq_error {after : α → Except ε β}
    (failed : (answer >>= after) = .error cause) :
    answer = .error cause ∨ ∃ found, answer = .ok found ∧ after found = .error cause := by
  cases answer with
  | error other =>
      cases failed
      exact .inl rfl
  | ok found => exact .inr ⟨found, rfl, failed⟩

theorem answer_map_eq_ok {change : α → β} {result : β} :
    answer.map change = .ok result ↔ ∃ found, answer = .ok found ∧ change found = result := by
  constructor
  · intro done
    cases answer with
    | error other => cases done
    | ok found =>
        cases done
        exact ⟨found, rfl, rfl⟩
  · rintro ⟨found, rfl, rfl⟩
    rfl

theorem answer_map_eq_error {change : α → β} (failed : answer.map change = .error cause) :
    answer = .error cause := by
  cases answer with
  | error other =>
      cases failed
      rfl
  | ok found => cases failed

theorem answer_mapError_eq_ok {change : ε → ε'} {found : α} :
    answer.mapError change = .ok found ↔ answer = .ok found := by
  constructor
  · intro answered
    cases answer with
    | ok other =>
        cases answered
        rfl
    | error cause => cases answered
  · rintro rfl
    rfl

theorem answer_mapError_eq_error {change : ε → ε'} {changed : ε'}
    (failed : answer.mapError change = .error changed) :
    ∃ cause, answer = .error cause ∧ changed = change cause := by
  cases answer with
  | error cause =>
      cases failed
      exact ⟨cause, rfl, rfl⟩
  | ok found => cases failed

theorem answer_toOption_eq_some {result : α} :
    answer.toOption = some result ↔ answer = .ok result := by
  constructor
  · intro found
    cases answer with
    | error cause => cases found
    | ok other =>
        cases found
        rfl
  · rintro rfl
    rfl

theorem answer_mapM_cons_eq_ok {ask : α → Except ε β} {item : α} {items : List α}
    {result : List β} :
    (item :: items).mapM ask = .ok result ↔
      ∃ found others, result = found :: others ∧ ask item = .ok found ∧
        items.mapM ask = .ok others := by
  rw [List.mapM_cons, answer_bind_eq_ok]
  constructor
  · rintro ⟨found, asked, after⟩
    obtain ⟨others, answered, same⟩ := answer_bind_eq_ok.mp after
    cases same
    exact ⟨found, others, rfl, asked, answered⟩
  · rintro ⟨found, others, rfl, asked, answered⟩
    exact ⟨found, asked, answer_bind_eq_ok.mpr ⟨others, answered, rfl⟩⟩

theorem answer_mapM_append_eq_ok {ask : α → Except ε β} {items : List α} {first last : List β} :
    items.mapM ask = .ok (first ++ last) ↔
      ∃ before after, items = before ++ after ∧ before.mapM ask = .ok first ∧
        after.mapM ask = .ok last := by
  constructor
  · intro answered
    induction first generalizing items with
    | nil => exact ⟨[], items, rfl, rfl, answered⟩
    | cons found first induction =>
        cases items with
        | nil => cases answered
        | cons item items =>
            obtain ⟨other, others, same, asked, answered⟩ := answer_mapM_cons_eq_ok.mp answered
            cases same
            obtain ⟨before, after, rfl, early, late⟩ := induction answered
            exact ⟨item :: before, after, rfl,
              answer_mapM_cons_eq_ok.mpr ⟨found, first, rfl, asked, early⟩, late⟩
  · rintro ⟨before, after, rfl, early, late⟩
    rw [List.mapM_append, early, late]
    rfl

/-- Of all that is asked, the first that has no answer is the cause. -/
theorem answer_mapM_eq_error_iff {ask : α → Except ε β} {items : List α} :
    items.mapM ask = .error cause ↔
      ∃ before item after found, items = before ++ item :: after ∧
        before.mapM ask = .ok found ∧ ask item = .error cause := by
  constructor
  · intro failed
    induction items with
    | nil => cases failed
    | cons item items induction =>
        rw [List.mapM_cons] at failed
        rcases answer_bind_eq_error failed with first | ⟨found, asked, failed⟩
        · exact ⟨[], item, items, [], rfl, rfl, first⟩
        rcases answer_bind_eq_error failed with failed | ⟨others, answered, failed⟩
        · obtain ⟨before, later, after, others, rfl, answered, last⟩ := induction failed
          exact ⟨item :: before, later, after, found :: others, rfl,
            answer_mapM_cons_eq_ok.mpr ⟨found, others, rfl, asked, answered⟩, last⟩
        · cases failed
  · rintro ⟨before, item, after, found, rfl, answered, failed⟩
    rw [List.mapM_append, answered, List.mapM_cons, failed]
    rfl

/-! Without the cause of an error, what is left of an answer is an option. -/

theorem answer_toOption_bind (answer : Except ε α) (after : α → Except ε β) :
    (answer >>= after).toOption =
      answer.toOption.bind fun found => (after found).toOption := by
  cases answer with
  | error cause => rfl
  | ok found => rfl

theorem answer_toOption_mapError (answer : Except ε α) (change : ε → ε') :
    (answer.mapError change).toOption = answer.toOption := by
  cases answer with
  | error cause => rfl
  | ok found => rfl

theorem answer_toOption_mapM (ask : α → Except ε β) (items : List α) :
    (items.mapM ask).toOption = items.mapM fun item => (ask item).toOption := by
  induction items with
  | nil => rfl
  | cons item items induction =>
      rw [List.mapM_cons, List.mapM_cons, answer_toOption_bind]
      apply congrArg
      funext found
      rw [answer_toOption_bind, induction]
      rfl

end ByteMachine
