namespace LogPipeline

/-!
# Leading spans

What stands at the start of a list while a test holds, and what comes next.  A
scanner that takes such a span of letters takes all of it and stops at a letter
that fails the test.
-/

section Spans

variable {α : Type} {test : α → Bool} {letters taken after : List α}

theorem any_head?_eq_false_iff :
    letters.head?.any test = false ↔ ∀ next ∈ letters.head?, test next = false := by
  cases letters <;> simp

theorem passes_of_mem_takeWhile : ∀ letter ∈ letters.takeWhile test, test letter = true := by
  intro letter member
  exact List.all_eq_true.mp List.all_takeWhile letter member

theorem fails_of_head?_dropWhile :
    ∀ next ∈ (letters.dropWhile test).head?, test next = false := by
  intro next member
  have stops := List.head?_dropWhile_not test letters
  rw [show (letters.dropWhile test).head? = some next from member] at stops
  simpa using stops

/-- What is taken while a test holds is taken in front of letters exactly if
all of it passes the test and the first of them does not. -/
theorem takeWhile_append_iff (test : α → Bool) (taken after : List α) :
    (taken ++ after).takeWhile test = taken ↔
      (∀ letter ∈ taken, test letter = true) ∧ ∀ letter ∈ after.head?, test letter = false := by
  constructor
  · intro same
    have fits : ∀ letter ∈ taken, test letter = true := by
      intro letter member
      rw [← same] at member
      exact passes_of_mem_takeWhile letter member
    rw [List.takeWhile_append_of_pos fits] at same
    have none : after.takeWhile test = [] := List.append_right_eq_self.mp same
    refine ⟨fits, fun letter member => ?_⟩
    cases after with
    | nil => cases member
    | cons head tail =>
      obtain rfl : head = letter := by simpa using member
      cases isTaken : test head with
      | false => rfl
      | true => simp [isTaken] at none
  · rintro ⟨fits, stops⟩
    rw [List.takeWhile_append_of_pos fits]
    cases after with
    | nil => simp
    | cons head tail => simp [stops head rfl]

theorem dropWhile_of_takeWhile (same : (taken ++ after).takeWhile test = taken) :
    (taken ++ after).dropWhile test = after := by
  have whole := List.takeWhile_append_dropWhile (p := test) (l := taken ++ after)
  rw [same] at whole
  exact List.append_cancel_left whole

end Spans

end LogPipeline
