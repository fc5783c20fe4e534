/-
What evaluations can end with.

An evaluation yields values of a property when every value it ends with has the
property and no operator in it has been applied to values of the wrong kind.  A
flag says whether it may be abandoned instead.
-/
import StagedResolver.Evaluation.Basic
import StagedResolver.Proofs.Evaluation.Fault

namespace StagedResolver

def EvaluationError.isOperandFault : EvaluationError → Bool
  | .operandMismatch .. => true
  | .unaryMismatch .. => true
  | _ => false

theorem EvaluationError.isOperandFault_of_arithmetic {error : EvaluationError}
    (arithmetic : error.kind = .arithmetic) : error.isOperandFault = false := by
  cases error with
  | operandMismatch operator left right => cases arithmetic
  | unaryMismatch operator operand => cases arithmetic
  | _ => rfl

namespace Evaluation

variable {α β : Type}

/-- An evaluation ends with a value of the property, is abandoned if it may be, or
fails for another reason than the kind of an operand. -/
inductive Yields (abandons : Bool) (holds : α → Prop) : Evaluation α → Prop where
  | value (sightings : List Sighting) {result : α} (resultHolds : holds result) :
      Yields abandons holds ⟨sightings, .value result⟩
  | abandoned (sightings : List Sighting) (mayAbandon : abandons = true) :
      Yields abandons holds ⟨sightings, .abandoned⟩
  | failed (sightings : List Sighting) {error : EvaluationError}
      (noFault : error.isOperandFault = false) :
      Yields abandons holds ⟨sightings, .failed error⟩

namespace Yields

variable {abandons further : Bool} {holds : α → Prop} {evaluation : Evaluation α}

theorem ok {result : α} (resultHolds : holds result) :
    (Evaluation.ok result).Yields abandons holds :=
  .value [] resultHolds

theorem mono {other : α → Prop} (yields : evaluation.Yields abandons holds)
    (mayAbandon : abandons = true → further = true)
    (implies : ∀ result, holds result → other result) :
    evaluation.Yields further other := by
  cases yields with
  | value sightings resultHolds => exact .value sightings (implies _ resultHolds)
  | abandoned sightings abandonsHere => exact .abandoned sightings (mayAbandon abandonsHere)
  | failed sightings noFault => exact .failed sightings noFault

theorem andThen {other : β → Prop} {next : α → Evaluation β}
    (yields : evaluation.Yields abandons holds)
    (nextYields : ∀ result, holds result → (next result).Yields further other) :
    (evaluation.andThen next).Yields (abandons || further) other := by
  cases yields with
  | @value sightings result resultHolds =>
      have later := nextYields result resultHolds
      simp only [Evaluation.andThen]
      generalize next result = second at later ⊢
      cases later with
      | value _ finalHolds => exact .value _ finalHolds
      | abandoned _ abandonsLater =>
          exact .abandoned _ (by rw [abandonsLater, Bool.or_true])
      | failed _ noFault => exact .failed _ noFault
  | abandoned sightings abandonsHere =>
      exact .abandoned _ (by rw [abandonsHere, Bool.true_or])
  | failed sightings noFault => exact .failed _ noFault

theorem ofExcept {result : Except EvaluationError α}
    (okHolds : ∀ found, result = .ok found → holds found)
    (noFault : ∀ error, result = .error error → error.isOperandFault = false) :
    (Evaluation.ofExcept result).Yields false holds := by
  cases result with
  | ok found => exact .value [] (okHolds found rfl)
  | error error => exact .failed [] (noFault error rfl)

theorem forEach {step : α → Evaluation β}
    (stepYields : ∀ item, (step item).Yields false fun _ => True) (items : List α) :
    (Evaluation.forEach step items).Yields false fun _ => True := by
  induction items with
  | nil => exact .ok trivial
  | cons item rest ih =>
      exact (stepYields item).andThen fun first _ =>
        ih.andThen fun others _ => .ok trivial

theorem orAbsent {evaluation : Evaluation Value} {holds : Value → Prop}
    (yields : evaluation.Yields abandons holds) :
    evaluation.orAbsent.Yields false fun result =>
      holds result ∨ abandons = true ∧ result = .absent := by
  cases yields with
  | value sightings resultHolds => exact .value sightings (.inl resultHolds)
  | abandoned sightings abandonsHere => exact .value sightings (.inr ⟨abandonsHere, rfl⟩)
  | failed sightings noFault => exact .failed sightings noFault

theorem sighted {evaluation : Evaluation Value} {holds : Value → Prop} (label : String)
    (yields : evaluation.Yields abandons holds) :
    (evaluation.sighted label).Yields abandons holds := by
  cases yields with
  | value sightings resultHolds => exact .value _ resultHolds
  | abandoned sightings abandonsHere => exact .abandoned _ abandonsHere
  | failed sightings noFault => exact .failed sightings noFault

theorem finish {evaluation : Evaluation Value} {holds : Value → Prop}
    (yields : evaluation.Yields abandons holds) {level : ReportLevel}
    {error : EvaluationError} (fails : (evaluation.finish level).result = .error error) :
    error.isOperandFault = false := by
  cases yields with
  | value sightings resultHolds => cases fails
  | abandoned sightings abandonsHere => cases fails
  | failed sightings noFault =>
      cases fails
      exact noFault

end Yields

end Evaluation

theorem Lookup.isOperandFault_of_resolve_eq_error {lookup : Lookup} {context : Context}
    {elements : List Value} {error : EvaluationError}
    (fails : lookup.resolve context elements = .error error) :
    error.isOperandFault = false := by
  simp only [Lookup.resolve] at fails
  cases found : lookup.find context elements with
  | error fault =>
      rw [found] at fails
      cases fails
      rcases Lookup.find_eq_error found with ⟨needed, kind, rfl⟩ | ⟨index, rfl⟩
      · rfl
      · rfl
  | ok held =>
      rw [found] at fails
      rcases Lookup.check_eq_error fails with rfl | ⟨kind, rfl⟩
      · rfl
      · rfl

end StagedResolver
