/-
Expressions as they are drafted, with names for the elements of maps.

A map names the element it binds, and a path may start from any such name.  A
path may also leave its slot to its first segments: any number of "parent" and
then "value", or a bare "args" or "env".
-/
import StagedResolver.Expression.Basic

namespace StagedResolver

abbrev BindingName := Nat

inductive Origin where
  | named
  | current
  | ancestor (depth : Nat)
  | arguments
  | environment
  | binding (name : BindingName)
deriving DecidableEq, Inhabited

inductive Draft where
  | constant (value : Value)
  | read (origin : Origin) (segments : List PathStep) (expected : ValueType)
  | binary (operator : BinaryOperator) (left right : Draft)
  | unary (operator : UnaryOperator) (operand : Draft)
  | map (source : Draft) (binding : BindingName) (transform : Draft)
  | flatten (source : Draft)
  | debug (label : String) (source : Draft)
deriving Inhabited

namespace Draft

/-- Reads one step further: a path grows by the step, and anything else is
mapped to what its element holds there.  The name must be one that `source`
does not leave unbound. -/
def enter (name : BindingName) (segment : PathStep) (expected : ValueType)
    (source : Draft) : Draft :=
  match source with
  | .read origin segments _ => .read origin (segments ++ [segment]) expected
  | other => .map other name (.read (.binding name) [segment] expected)

def expecting (expected : ValueType) (source : Draft) : Draft :=
  match source with
  | .read origin segments _ => .read origin segments expected
  | other => other

end Draft

end StagedResolver
