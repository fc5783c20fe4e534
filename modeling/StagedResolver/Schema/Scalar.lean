/-
Built-in scalar types.

A scalar says what an argument of it holds, which static types may produce it,
and how a value of it is written in a response.  Integers widen to floats, and
an identifier is written as a string.
-/
import StagedResolver.Json.Portable
import StagedResolver.Value.Type

namespace StagedResolver

/-- A built-in scalar.  Every other named type is an object. -/
inductive Scalar where
  | int
  | float
  | string
  | boolean
  | id
  | json
deriving DecidableEq, Inhabited

namespace Scalar

def name : Scalar → String
  | .int => "Int"
  | .float => "Float"
  | .string => "String"
  | .boolean => "Boolean"
  | .id => "ID"
  | .json => "JSON"

def named : List (String × Scalar) :=
  [("Int", .int), ("Float", .float), ("String", .string), ("Boolean", .boolean),
    ("ID", .id), ("JSON", .json)]

def ofName? (name : String) : Option Scalar :=
  Entries.find? name named

def inputType : Scalar → ValueType
  | .int => .int
  | .float => .float
  | .string => .string
  | .boolean => .bool
  | .id => .string
  | .json => .any

/-- Whether a resolver of a static type without optional layers may produce the
scalar. -/
def takesType (scalar : Scalar) (type : ValueType) : Bool :=
  match scalar, type with
  | .json, _ => true
  | _, .any => true
  | .int, .int => true
  | .float, .int => true
  | .float, .float => true
  | .string, .string => true
  | .boolean, .bool => true
  | .id, .int => true
  | .id, .string => true
  | _, _ => false

def written? (scalar : Scalar) (value : Value) : Option Value :=
  match scalar, value with
  | .json, other => some other
  | .int, .int number => some (.int number)
  | .float, .float number => some (.float number)
  | .float, .int number => some (.float (Binary64.ofInt number.toInt))
  | .string, .string text => some (.string text)
  | .boolean, .bool flag => some (.bool flag)
  | .id, .string text => some (.string text)
  | .id, .int number => some (.string (toString number.toInt))
  | _, _ => none

def takes (scalar : Scalar) (value : Value) : Bool :=
  (scalar.written? value).isSome

def toPortable (scalar : Scalar) : Json := .string scalar.name

def ofPortable? (document : Json) : Option Scalar := document.unit? named

end Scalar

end StagedResolver
