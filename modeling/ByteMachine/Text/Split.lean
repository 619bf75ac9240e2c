namespace ByteMachine.Text

/-! Cutting lists at separators. -/

variable {α : Type}

/-- Puts an item in front of the first piece; a separator starts a new piece. -/
def addItem (isSeparator : α → Bool) (item : α) (pieces : List (List α)) : List (List α) :=
  if isSeparator item then [] :: pieces
  else
    match pieces with
    | [] => [[item]]
    | piece :: pieces => (item :: piece) :: pieces

/-- The pieces between the separators, empty ones included. There is always one. -/
def split (isSeparator : α → Bool) (items : List α) : List (List α) :=
  items.foldr (addItem isSeparator) [[]]

def fields (isSeparator : α → Bool) (items : List α) : List (List α) :=
  (split isSeparator items).filter (!·.isEmpty)

@[simp] theorem split_nil (isSeparator : α → Bool) : split isSeparator [] = [[]] := rfl

@[simp] theorem split_cons (isSeparator : α → Bool) (item : α) (items : List α) :
    split isSeparator (item :: items) = addItem isSeparator item (split isSeparator items) :=
  rfl

theorem split_ne_nil (isSeparator : α → Bool) (items : List α) :
    split isSeparator items ≠ [] := by
  cases items with
  | nil => simp
  | cons item items =>
      rw [split_cons]
      unfold addItem
      split
      · simp
      · split <;> simp

theorem split_append_cons {isSeparator : α → Bool} {separator : α}
    (parts : isSeparator separator = true) (left right : List α) :
    split isSeparator (left ++ separator :: right) =
      split isSeparator left ++ split isSeparator right := by
  induction left with
  | nil => simp [addItem, parts]
  | cons item left ih =>
      by_cases here : isSeparator item = true
      · simp [addItem, here, ih]
      · obtain ⟨piece, pieces, shape⟩ :=
          List.exists_cons_of_ne_nil (split_ne_nil isSeparator left)
        simp [addItem, here, ih, shape]

theorem split_of_forall {isSeparator : α → Bool} {items : List α}
    (plain : ∀ item ∈ items, isSeparator item = false) :
    split isSeparator items = [items] := by
  induction items with
  | nil => rfl
  | cons item items ih =>
      have head := plain item (by simp)
      have tail := ih fun other member => plain other (by simp [member])
      simp [addItem, head, tail]

end ByteMachine.Text
