/-
Types that values are checked against.

A type admits a value that may sit under any number of present layers.  An
optional type also admits null and absent values, and `any` admits everything.
-/
import StagedResolver.Json.Portable
import StagedResolver.Value.Basic

namespace StagedResolver

inductive ValueType where
  | any
  | bool
  | int
  | float
  | string
  | record
  | sequence (item : ValueType)
  | optional (inner : ValueType)
deriving DecidableEq, Inhabited

namespace ValueType

def isOptional : ValueType → Bool
  | .optional _ => true
  | .any => true
  | _ => false

def withoutOptional : ValueType → ValueType
  | .optional inner => withoutOptional inner
  | type => type

/-- Whether a value has the type.  Sequences are checked item by item. -/
def admits : ValueType → Value → Bool
  | .any, _ => true
  | .bool, value => value.stripped.kind == .bool
  | .int, value => value.stripped.kind == .int
  | .float, value => value.stripped.kind == .float
  | .string, value => value.stripped.kind == .string
  | .record, value => value.stripped.kind == .record
  | .sequence item, value =>
      match value.stripped with
      | .sequence items => items.all fun element => admits item element
      | _ => false
  | .optional inner, value =>
      match value with
      | .absent => true
      | .null => true
      | .present content => admits inner content
      | other => admits inner other

def display : ValueType → String
  | .any => "Any"
  | .bool => "Bool"
  | .int => "Int"
  | .float => "Float"
  | .string => "String"
  | .record => "Record"
  | .sequence item => "[" ++ display item ++ "]"
  | .optional inner => display inner ++ "?"

def toPortable : ValueType → Json
  | .any => .string "Any"
  | .bool => .string "Bool"
  | .int => .string "Int"
  | .float => .string "Float"
  | .string => .string "String"
  | .record => .string "Record"
  | .sequence item => .tagged "Sequence" (toPortable item)
  | .optional inner => .tagged "Optional" (toPortable inner)

def simpleTypes : List (String × ValueType) :=
  [("Any", .any), ("Bool", .bool), ("Int", .int), ("Float", .float),
    ("String", .string), ("Record", .record)]

def ofPortable? : Json → Option ValueType
  | .object [(name, body)] =>
      if name = "Sequence" then (ofPortable? body).map .sequence
      else if name = "Optional" then (ofPortable? body).map .optional
      else (Json.object [(name, body)]).unit? simpleTypes
  | document => document.unit? simpleTypes

end ValueType

end StagedResolver
