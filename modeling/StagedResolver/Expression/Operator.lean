/-
Operators of expressions, and the steps of a path.
-/
import StagedResolver.Json.Portable

namespace StagedResolver

inductive BinaryOperator where
  | add
  | sub
  | mul
  | div
  | rem
  | equal
  | notEqual
  | lessThan
  | lessOrEqual
  | greaterThan
  | greaterOrEqual
  | and
  | or
  | concat
deriving DecidableEq, Inhabited

inductive UnaryOperator where
  | neg
  | not
deriving DecidableEq, Inhabited

namespace BinaryOperator

def symbol : BinaryOperator → String
  | .add => "+"
  | .sub => "-"
  | .mul => "*"
  | .div => "/"
  | .rem => "%"
  | .equal => "=="
  | .notEqual => "!="
  | .lessThan => "<"
  | .lessOrEqual => "<="
  | .greaterThan => ">"
  | .greaterOrEqual => ">="
  | .and => "&&"
  | .or => "||"
  | .concat => "++"

def compares : BinaryOperator → Bool
  | .equal | .notEqual | .lessThan | .lessOrEqual | .greaterThan
  | .greaterOrEqual => true
  | _ => false

def names : List (String × BinaryOperator) :=
  [("Add", .add), ("Sub", .sub), ("Mul", .mul), ("Div", .div), ("Rem", .rem),
    ("Equal", .equal), ("NotEqual", .notEqual), ("LessThan", .lessThan),
    ("LessOrEqual", .lessOrEqual), ("GreaterThan", .greaterThan),
    ("GreaterOrEqual", .greaterOrEqual), ("And", .and), ("Or", .or),
    ("Concat", .concat)]

def name : BinaryOperator → String
  | .add => "Add"
  | .sub => "Sub"
  | .mul => "Mul"
  | .div => "Div"
  | .rem => "Rem"
  | .equal => "Equal"
  | .notEqual => "NotEqual"
  | .lessThan => "LessThan"
  | .lessOrEqual => "LessOrEqual"
  | .greaterThan => "GreaterThan"
  | .greaterOrEqual => "GreaterOrEqual"
  | .and => "And"
  | .or => "Or"
  | .concat => "Concat"

def toPortable (operator : BinaryOperator) : Json := .string operator.name

def ofPortable? (document : Json) : Option BinaryOperator := document.unit? names

end BinaryOperator

namespace UnaryOperator

def symbol : UnaryOperator → String
  | .neg => "-"
  | .not => "!"

def names : List (String × UnaryOperator) := [("Neg", .neg), ("Not", .not)]

def name : UnaryOperator → String
  | .neg => "Neg"
  | .not => "Not"

def toPortable (operator : UnaryOperator) : Json := .string operator.name

def ofPortable? (document : Json) : Option UnaryOperator := document.unit? names

end UnaryOperator

inductive PathStep where
  | key (name : String)
  | index (position : Nat)
deriving DecidableEq, Inhabited

namespace PathStep

def display : PathStep → String
  | .key name => name
  | .index position => toString position

def displayAll (segments : List PathStep) : String :=
  String.intercalate "." (segments.map display)

def toPortable : PathStep → Json
  | .key name => .tagged "Key" (.string name)
  | .index position => .tagged "Index" (.integer position)

/-- Positions are natural numbers below 2^64. -/
def ofPortable? : Json → Option PathStep
  | .object [(tag, body)] =>
      if tag = "Key" then body.string?.map .key
      else if tag = "Index" then (body.natBelow? UInt64.size).map .index
      else none
  | _ => none

end PathStep

end StagedResolver
