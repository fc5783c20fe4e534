/-
The kinds in which evaluation fails.

A lookup fails for the kind of a value on its way, for the type of what it leads
to or for want of it; operators fail for the kinds of their operands or in
arithmetic.  That a bound element is lacking is said by lookups alone, before
they start.
-/
import StagedResolver.Evaluation.Lookup
import StagedResolver.Evaluation.Operation

namespace StagedResolver

theorem Lookup.follow_eq_error {lookup : Lookup} {segments : List PathStep}
    {value : Value} {error : EvaluationError}
    (fails : lookup.follow segments value = .error error) :
    ∃ needed found, error = .stepMismatch lookup needed found := by
  induction segments generalizing value with
  | nil => cases fails
  | cons segment rest ih =>
      simp only [Lookup.follow] at fails
      split at fails
      · cases fails
      · cases fails
      · split at fails
        · split at fails
          · exact ih fails
          · cases fails
        · split at fails
          · exact ih fails
          · cases fails
        · cases fails
          exact ⟨_, _, rfl⟩
        · cases fails
          exact ⟨_, _, rfl⟩

theorem Lookup.findInRecord_eq_error {lookup : Lookup} {record : Record}
    {error : EvaluationError} (fails : lookup.findInRecord record = .error error) :
    ∃ needed found, error = .stepMismatch lookup needed found := by
  simp only [Lookup.findInRecord] at fails
  split at fails
  · cases fails
  · split at fails
    · exact Lookup.follow_eq_error fails
    · cases fails
  · cases fails
    exact ⟨_, _, rfl⟩

theorem Lookup.check_eq_error {lookup : Lookup} {found : Option Value}
    {error : EvaluationError} (fails : lookup.check found = .error error) :
    error = .missingPath lookup ∨ ∃ kind, error = .pathMismatch lookup kind := by
  have ofNothing (absent : (if lookup.expected.isOptional then .ok .absent
      else .error (.missingPath lookup) : Except EvaluationError Value) = .error error) :
      error = .missingPath lookup := by
    split at absent
    · cases absent
    · cases absent
      rfl
  cases found with
  | none => exact .inl (ofNothing fails)
  | some value =>
      simp only [Lookup.check] at fails
      split at fails
      · exact .inl (ofNothing fails)
      · split at fails
        · cases fails
        · cases fails
          exact .inr ⟨_, rfl⟩

theorem Lookup.find_eq_error {lookup : Lookup} {context : Context}
    {elements : List Value} {error : EvaluationError}
    (fails : lookup.find context elements = .error error) :
    (∃ needed found, error = .stepMismatch lookup needed found) ∨
      ∃ index, error = .unboundElement index := by
  simp only [Lookup.find] at fails
  split at fails
  · exact .inl (Lookup.follow_eq_error fails)
  · split at fails
    · exact .inl (Lookup.follow_eq_error fails)
    · cases fails
  · exact .inl (Lookup.findInRecord_eq_error fails)
  · exact .inl (Lookup.findInRecord_eq_error fails)
  · split at fails
    · exact .inl (Lookup.follow_eq_error fails)
    · cases fails
      exact .inr ⟨_, rfl⟩

theorem BinaryOperator.kind_of_integers_eq_error {operator : BinaryOperator}
    {left right : Int64} {error : EvaluationError}
    (fails : operator.integers left right = .error error) : error.kind = .arithmetic := by
  simp only [BinaryOperator.integers] at fails
  split at fails
  · cases fails
    rfl
  · split at fails
    · cases fails
      rfl
    · split at fails
      · cases fails
      · cases fails
        rfl

theorem BinaryOperator.kind_of_apply_eq_error {operator : BinaryOperator}
    {left right : Value} {error : EvaluationError}
    (fails : operator.apply left right = .error error) :
    error.kind = .typeMismatch ∨ error.kind = .arithmetic := by
  simp only [BinaryOperator.apply, BinaryOperator.applyStripped] at fails
  split at fails
  · cases fails
  · cases fails
  · split at fails <;> cases fails
    exact .inl rfl
  · split at fails <;> cases fails
    exact .inl rfl
  · split at fails <;> cases fails
    exact .inl rfl
  · split at fails
    · split at fails <;> cases fails
      exact .inl rfl
    · split at fails
      · rename_i first second _ _
        cases computed : operator.integers first second with
        | ok result =>
            rw [computed] at fails
            cases fails
        | error fault =>
            rw [computed] at fails
            cases fails
            exact .inr (BinaryOperator.kind_of_integers_eq_error computed)
      · cases fails
      · cases fails
        exact .inl rfl

theorem UnaryOperator.kind_of_apply_eq_error {operator : UnaryOperator}
    {operand : Value} {error : EvaluationError}
    (fails : operator.apply operand = .error error) :
    error.kind = .typeMismatch ∨ error.kind = .arithmetic := by
  simp only [UnaryOperator.apply, UnaryOperator.applyStripped] at fails
  split at fails
  · split at fails
    · cases fails
    · cases fails
      exact .inr rfl
  · cases fails
  · cases fails
  · cases fails
    exact .inl rfl

theorem mapError_kind_ne_unboundElement {result : Except EvaluationError Value}
    (kinds : ∀ error, result = .error error →
      error.kind = .typeMismatch ∨ error.kind = .arithmetic) :
    result.mapError EvaluationError.kind ≠ .error .unboundElement := by
  intro unbound
  cases result with
  | ok found => cases unbound
  | error error =>
      have kindIs : error.kind = .unboundElement := Except.error.inj unbound
      rcases kinds error rfl with mismatch | arithmetic
      · rw [mismatch] at kindIs
        cases kindIs
      · rw [arithmetic] at kindIs
        cases kindIs

end StagedResolver
