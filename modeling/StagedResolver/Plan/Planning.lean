/-
Plans from selections.

The occurrences of one response key have to agree, and what is selected on all
of them is planned together.  How deep planning may go is known from the document
alone: every fragment is entered at most once on the way down, so that the depth
of the operation and the depths of all fragments add up to a bound.
-/
import StagedResolver.Plan.Basic
import StagedResolver.Plan.Collection

namespace StagedResolver

namespace FieldNode

/-- Whether both nodes give the same arguments, in any order. -/
def argumentsAgree (left right : FieldNode) : Bool :=
  left.arguments.length == right.arguments.length &&
    left.arguments.all fun argument =>
      match argumentNamed? argument.name.item right.arguments with
      | some other => other.item.agrees argument.value.item
      | none => false

def conflict? (key : String) (first other : FieldNode) : Option PlanError :=
  if other.name.item ≠ first.name.item then
    some (.differentFields key first.name.item other.name.item other.name.position)
  else if first.argumentsAgree other then none
  else some (.differentArguments key other.name.position)

end FieldNode

namespace Group

def conflict? (key : String) (group : Group) : Option PlanError :=
  group.others.findSome? fun other => group.first.node.conflict? key other.node

def selections (group : Group) : List (List Selection) :=
  (group.occurrences.map Occurrence.selections).filter fun list => !list.isEmpty

end Group

/-- A planned field, and its place among the fields of its type.  The name of the
type is no field and has no place. -/
structure PlacedPlan where
  place : Option Nat
  plan : PlannedField
deriving Inhabited

namespace PlacedPlan

def rank (field : PlacedPlan) : Nat :=
  match field.place with
  | none => 0
  | some place => place + 1

/-- Plans in the order that settings ask for.  Aliases of one field stay in the
order of the selection. -/
def arrange (order : KeyOrder) (fields : List PlacedPlan) : List PlannedField :=
  match order with
  | .selection => fields.map plan
  | .schema =>
      (fields.mergeSort fun left right => left.rank ≤ right.rank).map plan

end PlacedPlan

namespace PlanScope

def planTypename (key : String) (group : Group) : Except PlanError PlacedPlan :=
  let position := group.first.node.name.position
  if group.selections.isEmpty then .ok ⟨none, .typename key position⟩
  else .error (.needlessSelections group.first.node.name.item "String!" position)

def planField (scope : PlanScope)
    (planInner : ObjectIndex → List (List Selection) → Except PlanError Plan)
    (field : ObjectField) (place : Nat) (key : String) (group : Group) :
    Except PlanError PlacedPlan := do
  let name := group.first.node.name.item
  let position := group.first.node.name.position
  let arguments ← scope.assignment.argumentRecord field group.first.node
  match field.resolution.shape.object? with
  | some inner =>
      if group.selections.isEmpty then
        throw (.missingSelections name field.type.display position)
      else do
        let plan ← planInner inner group.selections
        return ⟨some place,
          .composite key position name arguments plan.object plan.fields⟩
  | none =>
      if group.selections.isEmpty then
        return ⟨some place, .leaf key position name arguments⟩
      else throw (.needlessSelections name field.type.display position)

def planGroup (scope : PlanScope)
    (planInner : ObjectIndex → List (List Selection) → Except PlanError Plan)
    (object : ObjectType) (key : String) (group : Group) :
    Except PlanError PlacedPlan :=
  let node := group.first.node
  match group.conflict? key with
  | some conflict => .error conflict
  | none =>
      if node.name.item = "__typename" then planTypename key group
      else
        let name := node.name.item
        match object.fields.position? name, object.fields.find? name with
        | some place, some field => scope.planField planInner field place key group
        | _, _ => .error (.unknownField object.name name node.name.position)

def planSelections (scope : PlanScope) :
    Nat → ObjectIndex → List (List Selection) → Except PlanError Plan
  | 0, _, _ => .error .tooDeep
  | allowance + 1, id, lists => do
      match scope.schema.object? id with
      | none => throw (.missingObject id)
      | some object =>
          let groups ← scope.collectAll object allowance lists
          let fields ← groups.mapM fun group =>
            scope.planGroup (planSelections scope allowance) object group.1 group.2
          return ⟨id, PlacedPlan.arrange scope.order fields⟩

/-- How deep selections can lead in a document: through those of the operation
and, once each, through those of all fragments. -/
def allowance (scope : PlanScope) (selections : List Selection) : Nat :=
  let inFragments := scope.fragments.entries.values.foldr (fun fragment total =>
    Selection.depthOfAll fragment.selections + 1 + total) 0
  Selection.depthOfAll selections + inFragments + 2

def plan (scope : PlanScope) (selections : List Selection) : Except PlanError Plan :=
  scope.planSelections (scope.allowance selections) scope.schema.query [selections]

end PlanScope

end StagedResolver
