/-
The fields that are selected on an object, collected by their response keys.

Fragments are entered where they stand, unless a directive keeps them out or
they are for another type.  A field that is selected more than once under one
key is one group; groups are in the order in which their keys first occur.
-/
import StagedResolver.Plan.Input
import StagedResolver.Settings.Basic

namespace StagedResolver

structure Occurrence where
  node : FieldNode
  selections : List Selection
deriving Inhabited

structure Group where
  first : Occurrence
  others : List Occurrence
deriving Inhabited

namespace Group

def occurrences (group : Group) : List Occurrence := group.first :: group.others

def add (group : Group) (occurrence : Occurrence) : Group :=
  { group with others := group.others ++ [occurrence] }

end Group

def addOccurrence (groups : Entries Group) (occurrence : Occurrence) : Entries Group :=
  let key := occurrence.node.responseKey
  match groups.find? key with
  | some group => groups.put key (group.add occurrence)
  | none => groups.put key ⟨occurrence, []⟩

structure PlanScope where
  schema : Schema
  fragments : OrderedMap Fragment
  assignment : Assignment
  order : KeyOrder

namespace PlanScope

def isMeantFor (scope : PlanScope) (object : ObjectType)
    (condition : Located String) : Except PlanError Bool :=
  if object.name = condition.item then .ok true
  else if (scope.schema.objectNamed? condition.item).isSome then .ok false
  else if (Scalar.ofName? condition.item).isSome then
    .error (.scalarCondition condition.item condition.position)
  else .error (.unknownType condition.item condition.position)

def isMeantForAny (scope : PlanScope) (object : ObjectType)
    (condition : Option (Located String)) : Except PlanError Bool :=
  match condition with
  | some required => scope.isMeantFor object required
  | none => .ok true

def admitsFragment (scope : PlanScope) (object : ObjectType)
    (fragment : Fragment) : Except PlanError Bool := do
  if ← scope.isMeantFor object fragment.condition then
    scope.assignment.admitsAll fragment.directives
  else return false

/-- Collects the fields of a selection, entering fragments inside each other as
often as `allowance` says. -/
def collect (scope : PlanScope) (object : ObjectType) :
    Nat → Entries Group → Selection → Except PlanError (Entries Group)
  | 0, _, _ => .error .tooDeep
  | allowance + 1, groups, selection =>
      match selection with
      | .field node selections => do
          if ← scope.assignment.admitsAll node.directives then
            return addOccurrence groups ⟨node, selections⟩
          else return groups
      | .spread name directives => do
          if ← scope.assignment.admitsAll directives then
            match scope.fragments.find? name.item with
            | none => throw (.unknownFragment name.item name.position)
            | some fragment =>
                if ← scope.admitsFragment object fragment then
                  fragment.selections.foldlM (collect scope object allowance) groups
                else return groups
          else return groups
      | .inline condition directives selections => do
          if ← scope.assignment.admitsAll directives then
            if ← scope.isMeantForAny object condition then
              selections.foldlM (collect scope object allowance) groups
            else return groups
          else return groups

def collectAll (scope : PlanScope) (object : ObjectType) (allowance : Nat)
    (lists : List (List Selection)) : Except PlanError (Entries Group) :=
  lists.flatten.foldlM (scope.collect object allowance) []

end PlanScope

end StagedResolver
