/-
Resolver expressions in their lowered form.

A lowered expression is closed over constants and lookups in the context.  The element
of an enclosing map has no name: a lookup says how many maps further out its
element is bound, zero being the innermost.
-/
import StagedResolver.Expression.Operator
import StagedResolver.Text.Basic
import StagedResolver.Value.Projection
import StagedResolver.Value.Type

namespace StagedResolver

inductive LookupRoot where
  | current
  | ancestor (depth : Nat)
  | arguments
  | environment
  | element (index : Nat)
deriving DecidableEq, Inhabited

/-- What to read off the context, and the type it has to have. -/
structure Lookup where
  root : LookupRoot
  segments : List PathStep
  expected : ValueType
deriving DecidableEq, Inhabited

inductive Expression where
  | constant (value : Value)
  | read (lookup : Lookup)
  | binary (operator : BinaryOperator) (left right : Expression)
  | unary (operator : UnaryOperator) (operand : Expression)
  | map (source transform : Expression)
  /-- Takes one present layer away; absence gives up the innermost map element,
  or else the whole expression. -/
  | flatten (source : Expression)
  | debug (label : String) (source : Expression)
deriving Inhabited

def LookupRoot.display : LookupRoot → String
  | .current => "value"
  | .ancestor depth =>
      if depth = 1 then "parent.value" else s!"parent^{depth}.value"
  | .arguments => "args"
  | .environment => "env"
  | .element index => s!"it{index}"

def Lookup.display (lookup : Lookup) : String :=
  lookup.segments.foldl (fun text segment => text ++ "." ++ segment.display)
    lookup.root.display

namespace Expression

def lookups : Expression → List Lookup
  | .constant _ => []
  | .read lookup => [lookup]
  | .binary _ left right => lookups left ++ lookups right
  | .unary _ operand => lookups operand
  | .map source transform => lookups source ++ lookups transform
  | .flatten source => lookups source
  | .debug _ source => lookups source

def display : Expression → String
  | .constant value => value.display
  | .read lookup => lookup.display
  | .binary operator left right =>
      "(" ++ display left ++ " " ++ operator.symbol ++ " " ++ display right ++ ")"
  | .unary operator operand => operator.symbol ++ display operand
  | .map source transform =>
      "map(" ++ display source ++ ", " ++ display transform ++ ")"
  | .flatten source => "flatten(" ++ display source ++ ")"
  | .debug label source =>
      "debug(" ++ Text.quoted label ++ ", " ++ display source ++ ")"

end Expression

end StagedResolver
