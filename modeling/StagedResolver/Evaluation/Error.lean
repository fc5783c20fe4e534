/-
Why an expression has no value.

Finding nothing where nothing is allowed to be found is no error but the absent
value.
-/
import StagedResolver.Expression.Basic

namespace StagedResolver

inductive EvaluationError where
  /-- What a lookup leads through is of the wrong kind: it needs a record or a
  sequence for its next step. -/
  | stepMismatch (lookup : Lookup) (needed found : ValueKind)
  /-- What a lookup leads to is not of the type it was built with. -/
  | pathMismatch (lookup : Lookup) (found : ValueKind)
  | operandMismatch (operator : BinaryOperator) (left right : ValueKind)
  | unaryMismatch (operator : UnaryOperator) (operand : ValueKind)
  | missingPath (lookup : Lookup)
  | divisionByZero (operator : BinaryOperator) (left right : Int64)
  | overflow (operator : BinaryOperator) (left right : Int64)
  | negationOverflow (operand : Int64)
  | unboundElement (index : Nat)
deriving DecidableEq, Inhabited

inductive EvaluationErrorKind where
  | typeMismatch
  | missingPath
  | arithmetic
  | unboundElement
deriving DecidableEq, Inhabited

namespace EvaluationError

def kind : EvaluationError → EvaluationErrorKind
  | .stepMismatch .. => .typeMismatch
  | .pathMismatch .. => .typeMismatch
  | .operandMismatch .. => .typeMismatch
  | .unaryMismatch .. => .typeMismatch
  | .missingPath _ => .missingPath
  | .divisionByZero .. => .arithmetic
  | .overflow .. => .arithmetic
  | .negationOverflow _ => .arithmetic
  | .unboundElement _ => .unboundElement

def takenOperands (operator : BinaryOperator) (left : ValueKind) : String :=
  if operator.compares then left.name
  else
    match operator with
    | .and => "two Bool"
    | .or => "two Bool"
    | .concat => "two String"
    | _ => "two Int or two Float"

def mismatch (place needed found : String) : String :=
  "Type mismatch at " ++ place ++ ": expected " ++ needed ++ ", found " ++ found

def operation (operator : BinaryOperator) (left right : Int64) : String :=
  toString left.toInt ++ " " ++ operator.symbol ++ " " ++ toString right.toInt

def message : EvaluationError → String
  | .stepMismatch lookup needed found => mismatch lookup.display needed.name found.name
  | .pathMismatch lookup found =>
      mismatch lookup.display lookup.expected.display found.name
  | .operandMismatch operator left right =>
      mismatch (left.name ++ " " ++ operator.symbol ++ " " ++ right.name)
        (takenOperands operator left) right.name
  | .unaryMismatch operator operand =>
      mismatch operator.symbol
        (match operator with
          | .neg => "Int or Float"
          | .not => "Bool")
        operand.name
  | .missingPath lookup => "No value found at " ++ lookup.display
  | .divisionByZero operator left right =>
      "Division by zero in " ++ operation operator left right
  | .overflow operator left right =>
      "Integer overflow in " ++ operation operator left right
  | .negationOverflow operand => "Integer overflow in -" ++ toString operand.toInt
  | .unboundElement index => "Map element " ++ toString index ++ " is not bound"

end EvaluationError

end StagedResolver
