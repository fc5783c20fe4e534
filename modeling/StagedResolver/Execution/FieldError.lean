/-
Why a field has no value.
-/
import StagedResolver.Evaluation.Error
import StagedResolver.Response.Basic
import StagedResolver.Schema.Scalar

namespace StagedResolver

structure FieldPlace where
  object : String
  field : String
  position : Position
deriving DecidableEq, Inhabited

def FieldPlace.display (place : FieldPlace) : String := place.object ++ "." ++ place.field

inductive FieldFault where
  | unresolved (error : EvaluationError)
  | nothingFound
  | notOfScalar (found : ValueKind) (scalar : Scalar)
  | listForObject
  | notList (found : ValueKind)
  | broken
deriving DecidableEq, Inhabited

/-- A fault of a field.  The path leads from where the fault is seen to the value
that is missing. -/
structure FieldError where
  path : List PathStep
  place : FieldPlace
  fault : FieldFault
deriving DecidableEq, Inhabited

namespace FieldError

def under (segment : PathStep) (error : FieldError) : FieldError :=
  { error with path := segment :: error.path }

def message (error : FieldError) : String :=
  match error.fault with
  | .unresolved inner => inner.message
  | .nothingFound =>
      "Cannot return null for non-nullable field " ++ error.place.display
  | .notOfScalar found expected =>
      error.place.display ++ " produced a " ++ found.name ++ " where " ++
        expected.name ++ " was expected"
  | .listForObject =>
      error.place.display ++ " produced a list where an object was expected"
  | .notList found =>
      error.place.display ++ " produced a " ++ found.name ++ " where a list was expected"
  | .broken => ResponseError.internal.message

def phase (error : FieldError) : Phase :=
  match error.fault with
  | .broken => .internal
  | _ => .resolver

def toResponse (error : FieldError) : ResponseError :=
  ⟨error.message, error.phase, [error.place.position.clamped], some error.path⟩

end FieldError

end StagedResolver
