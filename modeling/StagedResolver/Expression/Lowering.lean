/-
Lowering of drafted expressions.

Lowering replaces the name of a bound element by the number of maps between the
use and the map that binds it, and the named slot of a path by its root.  It
reports the first fault in the order of evaluation.
-/
import StagedResolver.Expression.Draft

namespace StagedResolver

inductive LoweringError where
  | emptyPath
  | unknownSlot (segment : PathStep)
  | incompletePath (segments : List PathStep)
  | ancestorSlot (segments : List PathStep)
  | unboundElement
deriving DecidableEq, Inhabited

def LoweringError.message : LoweringError → String
  | .emptyPath => "a context path needs at least one segment naming the context slot"
  | .unknownSlot segment =>
      "unknown context slot \x60" ++ segment.display ++
        "\x60, expected \x60value\x60, \x60parent\x60, \x60args\x60 or \x60env\x60"
  | .incompletePath segments =>
      "the path \x60" ++ PathStep.displayAll segments ++
        "\x60 ends on a context instead of a value"
  | .ancestorSlot segments =>
      "\x60" ++ PathStep.displayAll segments ++
        "\x60 can only be read from the current context"
  | .unboundElement => "a map element is referenced outside of its map"

/-- The root that the first segments name, and the segments after them.  `depth`
contexts have been left so far. -/
def slot (whole : List PathStep) (depth : Nat) :
    List PathStep → Except LoweringError (LookupRoot × List PathStep)
  | [] => if whole.isEmpty then .error .emptyPath else .error (.incompletePath whole)
  | .key name :: rest =>
      if name = "parent" then slot whole (depth + 1) rest
      else if name = "value" then
        .ok (if depth = 0 then .current else .ancestor depth, rest)
      else if name = "args" ∨ name = "env" then
        if 0 < depth then .error (.ancestorSlot (whole.take (depth + 1)))
        else .ok (if name = "args" then .arguments else .environment, rest)
      else .error (.unknownSlot (.key name))
  | segment :: _ => .error (.unknownSlot segment)

def bindingIndex? (name : BindingName) : List BindingName → Option Nat
  | [] => none
  | inner :: outer =>
      if inner = name then some 0 else (bindingIndex? name outer).map (· + 1)

/-- The root and the segments of a path.  `scope` holds the enclosing bindings,
innermost first. -/
def lowerRead (scope : List BindingName) (origin : Origin)
    (segments : List PathStep) :
    Except LoweringError (LookupRoot × List PathStep) :=
  match origin with
  | .named => slot segments 0 segments
  | .current => .ok (.current, segments)
  | .ancestor depth => .ok (if depth = 0 then .current else .ancestor depth, segments)
  | .arguments => .ok (.arguments, segments)
  | .environment => .ok (.environment, segments)
  | .binding name =>
      match bindingIndex? name scope with
      | some index => .ok (.element index, segments)
      | none => .error .unboundElement

namespace Draft

def lowerIn (scope : List BindingName) : Draft → Except LoweringError Expression
  | .constant value => .ok (.constant value)
  | .read origin segments expected => do
      let (root, rest) ← lowerRead scope origin segments
      return .read ⟨root, rest, expected⟩
  | .binary operator left right => do
      let left ← lowerIn scope left
      let right ← lowerIn scope right
      return .binary operator left right
  | .unary operator operand => do
      let operand ← lowerIn scope operand
      return .unary operator operand
  | .map source binding transform => do
      let source ← lowerIn scope source
      let transform ← lowerIn (binding :: scope) transform
      return .map source transform
  | .flatten source => do
      let source ← lowerIn scope source
      return .flatten source
  | .debug label source => do
      let source ← lowerIn scope source
      return .debug label source

def lower (draft : Draft) : Except LoweringError Expression :=
  draft.lowerIn []

end Draft

end StagedResolver
