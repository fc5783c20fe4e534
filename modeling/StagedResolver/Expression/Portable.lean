/-
The portable form of lowered expressions.
-/
import StagedResolver.Expression.Basic
import StagedResolver.Value.Portable

namespace StagedResolver

namespace LookupRoot

def toPortable : LookupRoot → Json
  | .current => .string "Current"
  | .ancestor depth => .tagged "Parent" (.integer depth)
  | .arguments => .string "Args"
  | .environment => .string "Env"
  | .element index => .tagged "Element" (.integer index)

/-- Depths and element indices are natural numbers below 2^32. -/
def ofPortable? : Json → Option LookupRoot
  | .object [(tag, body)] =>
      if tag = "Parent" then (body.natBelow? UInt32.size).map .ancestor
      else if tag = "Element" then (body.natBelow? UInt32.size).map .element
      else simple? (.object [(tag, body)])
  | document => simple? document
where
  simple? (document : Json) : Option LookupRoot :=
    document.unit? [("Current", .current), ("Args", .arguments),
      ("Env", .environment)]

end LookupRoot

namespace Lookup

def toPortable (lookup : Lookup) : Json :=
  .object [("root", lookup.root.toPortable),
    ("segments", .array (lookup.segments.map PathStep.toPortable)),
    ("expected", lookup.expected.toPortable)]

def segmentsOfPortable? : Json → Option (List PathStep)
  | .array items => items.mapM PathStep.ofPortable?
  | _ => none

def ofPortable? (document : Json) : Option Lookup :=
  match document.fields? ["root", "segments", "expected"] with
  | some [some root, some segments, some expected] => do
      let root ← LookupRoot.ofPortable? root
      let segments ← segmentsOfPortable? segments
      let expected ← ValueType.ofPortable? expected
      return ⟨root, segments, expected⟩
  | _ => none

end Lookup

namespace Expression

def toPortable : Expression → Json
  | .constant value => .tagged "Constant" value.toPortable
  | .read lookup => .tagged "ContextPath" lookup.toPortable
  | .binary operator left right =>
      .tagged "Binary" (.object [("op", operator.toPortable),
        ("left", toPortable left), ("right", toPortable right)])
  | .unary operator operand =>
      .tagged "Unary" (.object [("op", operator.toPortable),
        ("operand", toPortable operand)])
  | .map source transform =>
      .tagged "Map" (.object [("source", toPortable source),
        ("transform", toPortable transform)])
  | .flatten source => .tagged "FlattenOptional" (toPortable source)
  | .debug label source =>
      .tagged "Debug" (.object [("label", .string label),
        ("source", toPortable source)])

/-- The fields of a group that are expressions: those of an object by name, and
those of an array by the names of the fields in their order. -/
def field? (name : String) (decoded : List (String × Option Expression)) :
    Option Expression :=
  (Entries.find? name decoded).join

/-- What a group whose fields are partly expressions amounts to.  The parts
that are expressions come already decoded, under the names of the fields. -/
def ofGroup? (tag : String) (body : Json)
    (decoded : List (String × Option Expression)) : Option Expression :=
  if tag = "Binary" then
    match body.fields? ["op", "left", "right"] with
    | some [some operator, some _, some _] => do
        let operator ← BinaryOperator.ofPortable? operator
        let left ← field? "left" decoded
        let right ← field? "right" decoded
        return .binary operator left right
    | _ => none
  else if tag = "Unary" then
    match body.fields? ["op", "operand"] with
    | some [some operator, some _] => do
        let operator ← UnaryOperator.ofPortable? operator
        let operand ← field? "operand" decoded
        return .unary operator operand
    | _ => none
  else if tag = "Map" then
    match body.fields? ["source", "transform"] with
    | some [some _, some _] => do
        let source ← field? "source" decoded
        let transform ← field? "transform" decoded
        return .map source transform
    | _ => none
  else if tag = "Debug" then
    match body.fields? ["label", "source"] with
    | some [some label, some _] => do
        let label ← label.string?
        let source ← field? "source" decoded
        return .debug label source
    | _ => none
  else none

def groupFields (tag : String) : List String :=
  if tag = "Binary" then ["op", "left", "right"]
  else if tag = "Unary" then ["op", "operand"]
  else if tag = "Map" then ["source", "transform"]
  else if tag = "Debug" then ["label", "source"]
  else []

mutual

def ofPortable? : Json → Option Expression
  | .object [(tag, body)] =>
      if tag = "Constant" then (Value.ofPortable? body).map .constant
      else if tag = "ContextPath" then (Lookup.ofPortable? body).map .read
      else if tag = "FlattenOptional" then (ofPortable? body).map .flatten
      else
        match body with
        | .object members => ofGroup? tag body (membersOfPortable members)
        | .array items =>
            ofGroup? tag body ((groupFields tag).zip (itemsOfPortable items))
        | _ => none
  | _ => none

def membersOfPortable : List (String × Json) → List (String × Option Expression)
  | [] => []
  | (key, held) :: rest => (key, ofPortable? held) :: membersOfPortable rest

def itemsOfPortable : List Json → List (Option Expression)
  | [] => []
  | item :: rest => ofPortable? item :: itemsOfPortable rest

end

end Expression

end StagedResolver
