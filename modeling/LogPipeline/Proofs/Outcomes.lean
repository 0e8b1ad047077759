namespace LogPipeline

/-!
# Outcomes without a failure

What is done with a result gives one only if there was a result before.
-/

variable {Problem Result Next : Type}

theorem bind_eq_ok_iff {first : Except Problem Result} {next : Result → Except Problem Next}
    {last : Next} :
    first >>= next = .ok last ↔ ∃ result, first = .ok result ∧ next result = .ok last := by
  cases first with
  | error problem =>
    constructor
    · rintro ⟨⟩
    · rintro ⟨_, ⟨⟩, _⟩
  | ok result =>
    constructor
    · intro read
      exact ⟨result, rfl, read⟩
    · rintro ⟨_, ⟨⟩, read⟩
      exact read

theorem map_eq_ok_iff {first : Except Problem Result} {change : Result → Next} {last : Next} :
    first.map change = .ok last ↔ ∃ result, first = .ok result ∧ change result = last := by
  cases first with
  | error problem =>
    constructor
    · rintro ⟨⟩
    · rintro ⟨_, ⟨⟩, _⟩
  | ok result =>
    constructor
    · rintro ⟨⟩
      exact ⟨result, rfl, rfl⟩
    · rintro ⟨_, ⟨⟩, rfl⟩
      rfl

theorem mapError_eq_ok_iff {Other : Type} {first : Except Problem Result}
    {change : Problem → Other} {last : Result} :
    first.mapError change = .ok last ↔ first = .ok last := by
  cases first with
  | error problem => constructor <;> rintro ⟨⟩
  | ok result =>
    change (Except.ok result : Except Other Result) = .ok last ↔ _
    rw [Except.ok.injEq, Except.ok.injEq]

/-- What is known of the result of an outcome that has one. -/
theorem exists_ok_of_toOption_map {outcome : Except Problem Result} {view : Result → Next}
    {seen : Next} (known : outcome.toOption.map view = some seen) :
    ∃ result, outcome = .ok result ∧ view result = seen := by
  cases outcome with
  | error problem => cases known
  | ok result => exact ⟨result, rfl, Option.some.inj known⟩

end LogPipeline
