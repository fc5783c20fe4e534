/-
Plans of schemas that correspond.

Schemas correspond when one has the object types of the other, perhaps at other positions
and with their fields in another order.  Requests are prepared on both in the same way: they
are refused for the same reasons, or they have plans that differ only in how they number
object types and in how the settings arrange fields.
-/
import Mathlib.Data.List.Perm.Basic
import StagedResolver.Engine.Basic
import StagedResolver.Proofs.Plan.Fit

namespace StagedResolver

def Shape.renumber (rename : ObjectIndex → ObjectIndex) : Shape → Shape
  | .scalar leaf required => .scalar leaf required
  | .object id required => .object (rename id) required
  | .list item required => .list (renumber rename item) required

def ObjectField.renumber (rename : ObjectIndex → ObjectIndex) (field : ObjectField) :
    ObjectField :=
  { field with resolution := ⟨field.resolution.source, field.resolution.shape.renumber rename⟩ }

namespace Shape

variable {rename : ObjectIndex → ObjectIndex}

private theorem object?_renumber (shape : Shape) :
    (shape.renumber rename).object? = shape.object?.map rename := by
  induction shape with
  | scalar leaf required => rfl
  | object id required => rfl
  | list item required ih => exact ih

theorem required_renumber (shape : Shape) : (shape.renumber rename).required = shape.required := by
  cases shape with
  | _ => rfl

private theorem renumber_id (shape : Shape) : shape.renumber id = shape := by
  induction shape with
  | scalar leaf required => rfl
  | object id required => rfl
  | list item required ih => rw [renumber, ih]

end Shape

/-- Whether two object types have the same fields, up to the positions in shapes. -/
structure ObjectType.Corresponds (rename : ObjectIndex → ObjectIndex)
    (object other : ObjectType) : Prop where
  name : other.name = object.name
  fields : ∀ name,
    other.fields.find? name = (object.fields.find? name).map (ObjectField.renumber rename)

/-- Whether the object types of two schemas correspond, each to the one at the renamed
position. -/
structure Schema.Corresponds (rename : ObjectIndex → ObjectIndex) (schema other : Schema) :
    Prop where
  query : other.query = rename schema.query
  objects : ∀ id, Option.Rel (ObjectType.Corresponds rename) (schema.object? id)
    (other.object? (rename id))
  outside : ∀ id, schema.object? id = none → rename id = id
  named : ∀ name, (other.objectNamed? name).isSome = (schema.objectNamed? name).isSome

theorem Schema.corresponds_self (schema : Schema) : schema.Corresponds id schema where
  query := rfl
  objects position := by
    have sameField : ObjectField.renumber id = id := by
      funext field
      rw [ObjectField.renumber, Shape.renumber_id]
      rfl
    show Option.Rel _ (schema.object? position) (schema.object? position)
    cases schema.object? position with
    | none => exact .none
    | some object =>
        refine .some ⟨rfl, fun name => ?_⟩
        rw [sameField, Option.map_id]
        rfl
  outside _ _ := rfl
  named _ := rfl

section Relation

variable (rename : ObjectIndex → ObjectIndex)
variable (arranged : List PlannedField → List PlannedField → Prop)

/-- Whether two planned fields ask for the same, with object types renamed and the fields of
objects arranged anew. -/
inductive PlannedField.Corresponds : PlannedField → PlannedField → Prop where
  | typename (key : String) (position : Position) :
      Corresponds (.typename key position) (.typename key position)
  | leaf (key : String) (position : Position) (name : String) (arguments : Record) :
      Corresponds (.leaf key position name arguments) (.leaf key position name arguments)
  | composite (key : String) (position : Position) (name : String) (arguments : Record)
      (id : ObjectIndex) {fields middle others : List PlannedField}
      (inside : List.Forall₂ Corresponds fields middle) (isArranged : arranged middle others) :
      Corresponds (.composite key position name arguments id fields)
        (.composite key position name arguments (rename id) others)

/-- Whether two plans ask for the same of corresponding object types. -/
structure Plan.Corresponds (plan other : Plan) : Prop where
  object : other.object = rename plan.object
  fields : ∃ middle, List.Forall₂ (PlannedField.Corresponds rename arranged) plan.fields middle ∧
    arranged middle other.fields

/-- Whether planning arranges fields that correspond in corresponding ways. -/
def Arranges (order other : KeyOrder) : Prop :=
  ∀ placed others, List.Forall₂ (fun one another : PlacedPlan =>
      PlannedField.Corresponds rename arranged one.plan another.plan) placed others →
    ∃ middle, List.Forall₂ (PlannedField.Corresponds rename arranged)
        (PlacedPlan.arrange order placed) middle ∧
      arranged middle (PlacedPlan.arrange other others)

end Relation

variable {rename : ObjectIndex → ObjectIndex}
variable {arranged : List PlannedField → List PlannedField → Prop}

theorem PlannedField.Corresponds.key_eq {planned other : PlannedField}
    (corresponds : Corresponds rename arranged planned other) : other.key = planned.key := by
  cases corresponds with
  | _ => rfl

theorem arranges_perm (order other : KeyOrder) : Arranges rename List.Perm order other := by
  intro placed others each
  have plans : List.Forall₂ (PlannedField.Corresponds rename List.Perm)
      (placed.map PlacedPlan.plan) (others.map PlacedPlan.plan) :=
    List.forall₂_map_left_iff.mpr (List.forall₂_map_right_iff.mpr each)
  obtain ⟨middle, corresponding, permuted⟩ :=
    List.perm_comp_forall₂ (PlacedPlan.arrange_perm order placed) plans
  exact ⟨middle, corresponding, permuted.trans (PlacedPlan.arrange_perm other others).symm⟩

theorem arranges_selection : Arranges rename Eq .selection .selection := by
  intro placed others each
  refine ⟨others.map PlacedPlan.plan, ?_, rfl⟩
  exact List.forall₂_map_left_iff.mpr (List.forall₂_map_right_iff.mpr each)

/-! ### Planning -/

namespace PlanScope

/-- Whether two scopes plan the same document with the same variables on schemas that
correspond, and arrange what they plan in corresponding ways. -/
structure Corresponds (rename : ObjectIndex → ObjectIndex)
    (arranged : List PlannedField → List PlannedField → Prop) (scope other : PlanScope) :
    Prop where
  schema : scope.schema.Corresponds rename other.schema
  fragments : other.fragments = scope.fragments
  assignment : other.assignment = scope.assignment
  arranges : Arranges rename arranged scope.order other.order

variable {scope other : PlanScope} {object otherObject : ObjectType}

private theorem Corresponds.isMeantFor_eq (corresponds : scope.Corresponds rename arranged other)
    (objects : object.Corresponds rename otherObject) (condition : Located String) :
    other.isMeantFor otherObject condition = scope.isMeantFor object condition := by
  simp only [isMeantFor, objects.name, corresponds.schema.named]

private theorem Corresponds.collect_eq (corresponds : scope.Corresponds rename arranged other)
    (objects : object.Corresponds rename otherObject) (allowance : Nat) :
    other.collect otherObject allowance = scope.collect object allowance := by
  have meant : other.isMeantFor otherObject = scope.isMeantFor object :=
    funext (corresponds.isMeantFor_eq objects)
  induction allowance with
  | zero => rfl
  | succ allowance ih =>
      funext groups selection
      simp only [collect, admitsFragment, isMeantForAny, corresponds.assignment,
        corresponds.fragments, meant, ih]

private theorem argumentRecord_renumber (assignment : Assignment) (field : ObjectField)
    (node : FieldNode) :
    assignment.argumentRecord (field.renumber rename) node =
      assignment.argumentRecord field node := by
  have values (entries : Entries FieldArgument) :
      assignment.argumentValues (field.renumber rename) node entries =
        assignment.argumentValues field node entries := by
    induction entries with
    | nil => rfl
    | cons entry rest ih =>
        rw [Assignment.argumentValues, Assignment.argumentValues, ih]
        rfl
  rw [Assignment.argumentRecord, Assignment.argumentRecord, values]
  rfl

variable {planInner otherInner : ObjectIndex → List (List Selection) → Except PlanError Plan}

theorem Corresponds.planField (corresponds : scope.Corresponds rename arranged other)
    (inner : ∀ id lists, Alike (Plan.Corresponds rename arranged) (planInner id lists)
      (otherInner (rename id) lists))
    (field : ObjectField) (place otherPlace : Nat) (key : String) (group : Group) :
    Alike (fun one another : PlacedPlan =>
        PlannedField.Corresponds rename arranged one.plan another.plan)
      (scope.planField planInner field place key group)
      (other.planField otherInner (field.renumber rename) otherPlace key group) := by
  simp only [PlanScope.planField, corresponds.assignment, argumentRecord_renumber]
  refine .sameBind fun arguments => ?_
  simp only [ObjectField.renumber, Shape.object?_renumber]
  cases field.resolution.shape.object? with
  | none =>
      simp only [Option.map_none]
      split
      · exact .ok (.leaf _ _ _ _)
      · exact .error _
  | some id =>
      simp only [Option.map_some]
      split
      · exact .error _
      · refine (inner id group.selections).bind fun plan otherPlan plans => ?_
        obtain ⟨middle, inside, isArranged⟩ := plans.fields
        rw [plans.object]
        exact .ok (.composite _ _ _ _ _ inside isArranged)

theorem Corresponds.planGroup (corresponds : scope.Corresponds rename arranged other)
    (objects : object.Corresponds rename otherObject)
    (inner : ∀ id lists, Alike (Plan.Corresponds rename arranged) (planInner id lists)
      (otherInner (rename id) lists))
    (key : String) (group : Group) :
    Alike (fun one another : PlacedPlan =>
        PlannedField.Corresponds rename arranged one.plan another.plan)
      (scope.planGroup planInner object key group)
      (other.planGroup otherInner otherObject key group) := by
  simp only [PlanScope.planGroup]
  split
  · exact .error _
  · split
    · -- Only the name of the type is asked for.
      rw [planTypename]
      split
      · exact .ok (.typename _ _)
      · exact .error _
    · have sameField := objects.fields group.first.node.name.item
      rw [objects.name]
      cases found : object.fields.find? group.first.node.name.item with
      | none =>
          rw [found] at sameField
          have noPlace : object.fields.position? group.first.node.name.item = none :=
            Entries.position?_eq_none_iff.mpr (Entries.find?_eq_none_iff.mp found)
          have noOtherPlace : otherObject.fields.position? group.first.node.name.item = none :=
            Entries.position?_eq_none_iff.mpr (Entries.find?_eq_none_iff.mp sameField)
          rw [noPlace, noOtherPlace]
          exact .error _
      | some field =>
          rw [found] at sameField
          obtain ⟨place, isPlace⟩ := Entries.exists_position?_of_find? found
          obtain ⟨otherPlace, isOtherPlace⟩ := Entries.exists_position?_of_find? sameField
          have isPlace : object.fields.position? group.first.node.name.item = some place :=
            isPlace
          have isOtherPlace :
              otherObject.fields.position? group.first.node.name.item = some otherPlace :=
            isOtherPlace
          rw [isPlace, isOtherPlace, sameField]
          exact corresponds.planField inner field place otherPlace key group

/-- Selections are planned alike on object types that correspond. -/
theorem Corresponds.planSelections (corresponds : scope.Corresponds rename arranged other)
    (allowance : Nat) (id : ObjectIndex) (lists : List (List Selection)) :
    Alike (Plan.Corresponds rename arranged) (scope.planSelections allowance id lists)
      (other.planSelections allowance (rename id) lists) := by
  induction allowance generalizing id lists with
  | zero => exact .error _
  | succ allowance ih =>
      simp only [PlanScope.planSelections]
      have objects := corresponds.schema.objects id
      cases isObject : scope.schema.object? id with
      | none =>
          rw [isObject] at objects
          generalize other.schema.object? (rename id) = otherFound at objects
          cases objects
          rw [corresponds.schema.outside id isObject]
          exact .error _
      | some object =>
          rw [isObject] at objects
          generalize other.schema.object? (rename id) = otherFound at objects
          cases objects with
          | @some _ otherObject object =>
              simp only [collectAll, corresponds.collect_eq object]
              refine .sameBind fun groups => ?_
              have each : ∀ group ∈ groups, _ := fun group _ =>
                corresponds.planGroup object ih group.1 group.2
              refine (Alike.mapM each).bind fun placed others placedAlike => ?_
              exact .ok ⟨rfl, corresponds.arranges placed others placedAlike⟩

theorem Corresponds.plan (corresponds : scope.Corresponds rename arranged other)
    (selections : List Selection) :
    Alike (Plan.Corresponds rename arranged) (scope.plan selections) (other.plan selections) := by
  have sameAllowance : other.allowance selections = scope.allowance selections := by
    simp only [allowance, corresponds.fragments]
  rw [PlanScope.plan, PlanScope.plan, sameAllowance, corresponds.schema.query]
  exact corresponds.planSelections _ _ _

end PlanScope

/-- Engines whose schemas correspond, and whose settings allow the same and arrange fields in
corresponding ways, prepare requests alike. -/
theorem Engine.prepare_alike {engine other : Engine}
    (schemas : engine.schema.Corresponds rename other.schema)
    (sameLimit : other.settings.maxDepth = engine.settings.maxDepth)
    (arranges : Arranges rename arranged engine.settings.keyOrder other.settings.keyOrder)
    (request : Request) :
    Alike (Plan.Corresponds rename arranged) (engine.prepare request) (other.prepare request) := by
  unfold prepare
  rw [sameLimit]
  refine .sameBind fun document => .sameBind fun operation => .sameBind fun _ => ?_
  refine .sameBind fun assignment => ?_
  have scopes : PlanScope.Corresponds rename arranged
      ⟨engine.schema, document.fragments, assignment, engine.settings.keyOrder⟩
      ⟨other.schema, document.fragments, assignment, other.settings.keyOrder⟩ :=
    ⟨schemas, rfl, rfl, arranges⟩
  exact (scopes.plan operation.selections).mapError Refusal.plan

end StagedResolver
