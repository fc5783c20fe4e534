/-
What the operators compute.

Operands are taken without their present layers.  Equality compares any two
values; the ordering operators compare two values of one kind.  Integer
arithmetic is exact or fails, with quotients cut toward zero.
-/
import StagedResolver.Evaluation.Error
import StagedResolver.Value.Order

namespace StagedResolver

namespace BinaryOperator

/-- The exact result of an arithmetic operator, for a divisor other than zero. -/
def exact (operator : BinaryOperator) (left right : Int) : Int :=
  match operator with
  | .add => left + right
  | .sub => left - right
  | .mul => left * right
  | .div => left.tdiv right
  | _ => left.tmod right

def divides : BinaryOperator → Bool
  | .div => true
  | .rem => true
  | _ => false

/-- Integer arithmetic.  The remainder fails together with the quotient. -/
def integers (operator : BinaryOperator) (left right : Int64) :
    Except EvaluationError Int64 :=
  if operator.divides ∧ right = 0 then .error (.divisionByZero operator left right)
  else
    let quotient := left.toInt.tdiv right.toInt
    let result := operator.exact left.toInt right.toInt
    if operator = .rem ∧ (Value.int64? quotient).isNone then
      .error (.overflow operator left right)
    else
      match Value.int64? result with
      | some fitting => .ok fitting
      | none => .error (.overflow operator left right)

def floats (operator : BinaryOperator) (left right : Binary64) : Binary64 :=
  match operator with
  | .add => left.add right
  | .sub => left.sub right
  | .mul => left.mul right
  | .div => left.div right
  | _ => left.rem right

def holds (operator : BinaryOperator) (order : Ordering) : Bool :=
  match operator with
  | .lessThan => order == .lt
  | .lessOrEqual => order != .gt
  | .greaterThan => order == .gt
  | _ => order != .lt

def applyStripped (operator : BinaryOperator) (left right : Value) :
    Except EvaluationError Value :=
  let mismatch : Except EvaluationError Value :=
    .error (.operandMismatch operator left.kind right.kind)
  match operator with
  | .equal => .ok (.bool (left == right))
  | .notEqual => .ok (.bool (!(left == right)))
  | .and =>
      match left, right with
      | .bool first, .bool second => .ok (.bool (first && second))
      | _, _ => mismatch
  | .or =>
      match left, right with
      | .bool first, .bool second => .ok (.bool (first || second))
      | _, _ => mismatch
  | .concat =>
      match left, right with
      | .string first, .string second => .ok (.string (first ++ second))
      | _, _ => mismatch
  | other =>
      if other.compares then
        if left.kind = right.kind then .ok (.bool (other.holds (left.compare right)))
        else mismatch
      else
        match left, right with
        | .int first, .int second => (other.integers first second).map .int
        | .float first, .float second => .ok (.float (other.floats first second))
        | _, _ => mismatch

def apply (operator : BinaryOperator) (left right : Value) :
    Except EvaluationError Value :=
  operator.applyStripped left.stripped right.stripped

end BinaryOperator

namespace UnaryOperator

def applyStripped (operator : UnaryOperator) (operand : Value) :
    Except EvaluationError Value :=
  match operator, operand with
  | .neg, .int number =>
      match Value.int64? (-number.toInt) with
      | some fitting => .ok (.int fitting)
      | none => .error (.negationOverflow number)
  | .neg, .float number => .ok (.float number.neg)
  | .not, .bool flag => .ok (.bool (!flag))
  | other, found => .error (.unaryMismatch other found.kind)

def apply (operator : UnaryOperator) (operand : Value) :
    Except EvaluationError Value :=
  operator.applyStripped operand.stripped

end UnaryOperator

end StagedResolver
