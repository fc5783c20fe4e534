/-
The paths of a draft, each where it stands.

A path stands inside maps, and their names are all that lowering it depends on.  A
draft lowers when each of its paths does, to an expression with their lookups, and
fails as the first of them that fails, in the order of evaluation.
-/
import StagedResolver.Proofs.Expression.Lowered

namespace StagedResolver

structure DraftPath where
  origin : Origin
  segments : List PathStep
  expected : ValueType
deriving DecidableEq, Inhabited

structure PlacedPath where
  scope : List BindingName
  path : DraftPath
deriving DecidableEq, Inhabited

/-- The lookup that a path lowers to where it stands. -/
def PlacedPath.lower (place : PlacedPath) : Except LoweringError Lookup :=
  (lowerRead place.scope place.path.origin place.path.segments).map fun start =>
    ⟨start.1, start.2, place.path.expected⟩

namespace Draft

def paths : Draft → List DraftPath
  | .constant _ => []
  | .read origin segments expected => [⟨origin, segments, expected⟩]
  | .binary _ left right => paths left ++ paths right
  | .unary _ operand => paths operand
  | .map source _ transform => paths source ++ paths transform
  | .flatten source => paths source
  | .debug _ source => paths source

/-- The same, with the maps around each path inside those of `scope`. -/
def pathsIn (scope : List BindingName) : Draft → List PlacedPath
  | .constant _ => []
  | .read origin segments expected => [⟨scope, origin, segments, expected⟩]
  | .binary _ left right => pathsIn scope left ++ pathsIn scope right
  | .unary _ operand => pathsIn scope operand
  | .map source name transform => pathsIn scope source ++ pathsIn (name :: scope) transform
  | .flatten source => pathsIn scope source
  | .debug _ source => pathsIn scope source

theorem map_path_pathsIn (scope : List BindingName) (draft : Draft) :
    (draft.pathsIn scope).map PlacedPath.path = draft.paths := by
  induction draft generalizing scope with
  | constant value => rfl
  | read origin segments expected => rfl
  | binary operator left right ihLeft ihRight =>
      rw [pathsIn, List.map_append, ihLeft, ihRight, paths]
  | unary operator operand ih => exact ih scope
  | map source name transform ihSource ihTransform =>
      rw [pathsIn, List.map_append, ihSource, ihTransform, paths]
  | flatten source ih => exact ih scope
  | debug label source ih => exact ih scope

theorem lowerIn_read (scope : List BindingName) (origin : Origin) (segments : List PathStep)
    (expected : ValueType) :
    (Draft.read origin segments expected).lowerIn scope =
      (PlacedPath.lower ⟨scope, origin, segments, expected⟩).map .read := by
  unfold lowerIn PlacedPath.lower
  cases lowerRead scope origin segments with
  | error fault => rfl
  | ok start => rfl

theorem forall₂_lower_of_lowerIn {scope : List BindingName} {draft : Draft}
    {expression : Expression} (lowers : draft.lowerIn scope = .ok expression) :
    List.Forall₂ (fun place lookup => place.lower = .ok lookup) (draft.pathsIn scope)
      expression.lookups := by
  induction draft generalizing scope expression with
  | constant value =>
      cases lowers
      exact .nil
  | read origin segments expected =>
      rw [lowerIn_read] at lowers
      obtain ⟨lookup, lookupIs, rfl⟩ := map_eq_ok.mp lowers
      exact .cons lookupIs .nil
  | binary operator left right ihLeft ihRight =>
      obtain ⟨first, leftLowers, second, rightLowers, rfl⟩ := lowerIn_binary_eq_ok.mp lowers
      exact List.rel_append (ihLeft leftLowers) (ihRight rightLowers)
  | unary operator operand ih =>
      obtain ⟨lowered, operandLowers, rfl⟩ := lowerIn_unary_eq_ok.mp lowers
      exact @ih scope lowered operandLowers
  | map source name transform ihSource ihTransform =>
      obtain ⟨first, sourceLowers, second, transformLowers, rfl⟩ :=
        lowerIn_map_eq_ok.mp lowers
      exact List.rel_append (ihSource sourceLowers) (ihTransform transformLowers)
  | flatten source ih =>
      obtain ⟨lowered, sourceLowers, rfl⟩ := lowerIn_flatten_eq_ok.mp lowers
      exact @ih scope lowered sourceLowers
  | debug label source ih =>
      obtain ⟨lowered, sourceLowers, rfl⟩ := lowerIn_debug_eq_ok.mp lowers
      exact @ih scope lowered sourceLowers

/-- A draft fails to lower as the first of its paths that does. -/
theorem faultOf?_lowerIn (scope : List BindingName) (draft : Draft) :
    faultOf? (draft.lowerIn scope) =
      (draft.pathsIn scope).findSome? fun place => faultOf? place.lower := by
  induction draft generalizing scope with
  | constant value => rfl
  | read origin segments expected =>
      rw [lowerIn_read, faultOf?_map]
      exact List.findSome?_singleton.symm
  | binary operator left right ihLeft ihRight =>
      unfold lowerIn pathsIn
      rw [List.findSome?_append, ← ihLeft, ← ihRight]
      apply faultOf?_bind
      intro first
      exact faultOf?_map _ _
  | unary operator operand ih =>
      unfold lowerIn pathsIn
      rw [← ih]
      exact faultOf?_map _ _
  | map source name transform ihSource ihTransform =>
      unfold lowerIn pathsIn
      rw [List.findSome?_append, ← ihSource, ← ihTransform]
      apply faultOf?_bind
      intro first
      exact faultOf?_map _ _
  | flatten source ih =>
      unfold lowerIn pathsIn
      rw [← ih]
      exact faultOf?_map _ _
  | debug label source ih =>
      unfold lowerIn pathsIn
      rw [← ih]
      exact faultOf?_map _ _

end Draft

end StagedResolver
