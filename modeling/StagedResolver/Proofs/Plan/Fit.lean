/-
Plans fit the schema they are made for.

Every field that is planned is a field of its object's type, a field is planned
with fields of its own exactly when it produces objects, and these are of the type
that the plan says.  No object is planned with the same key twice.
-/
import StagedResolver.Plan.Planning
import StagedResolver.Proofs.Success

namespace StagedResolver

/-- Whether a planned field fits an object type of a schema. -/
inductive PlannedField.Fits (schema : Schema) : ObjectType → PlannedField → Prop where
  | typename {object : ObjectType} (key : String) (position : Position) :
      Fits schema object (.typename key position)
  | leaf {object : ObjectType} {name : String} {field : ObjectField} (key : String)
      (position : Position) (arguments : Record)
      (found : object.fields.find? name = some field)
      (noObject : field.resolution.shape.object? = none) :
      Fits schema object (.leaf key position name arguments)
  | composite {object inner : ObjectType} {name : String} {field : ObjectField}
      {id : ObjectIndex} {fields : List PlannedField} (key : String)
      (position : Position) (arguments : Record)
      (found : object.fields.find? name = some field)
      (ofObject : field.resolution.shape.object? = some id)
      (innerFound : schema.object? id = some inner)
      (distinct : (fields.map PlannedField.key).Nodup)
      (inside : ∀ planned ∈ fields, Fits schema inner planned) :
      Fits schema object (.composite key position name arguments id fields)

/-- Whether a plan is for an object type of a schema, whose fields it asks for under
distinct keys. -/
structure Plan.Fits (schema : Schema) (object : ObjectType) (plan : Plan) : Prop where
  found : schema.object? plan.object = some object
  distinct : (plan.fields.map PlannedField.key).Nodup
  fields : ∀ planned ∈ plan.fields, planned.Fits schema object

theorem distinctKeys_addOccurrence {groups : Entries Group} (distinct : groups.DistinctKeys)
    (occurrence : Occurrence) : (addOccurrence groups occurrence).DistinctKeys := by
  simp only [addOccurrence]
  split
  · exact distinct.put _ _
  · exact distinct.put _ _

namespace PlanScope

variable {scope : PlanScope} {object : ObjectType}

/-- However a selection is entered, the groups collected from it have distinct
keys. -/
theorem distinctKeys_of_collect {allowance : Nat} {groups result : Entries Group}
    {selection : Selection}
    (collected : scope.collect object allowance groups selection = .ok result)
    (distinct : groups.DistinctKeys) : result.DistinctKeys := by
  induction allowance generalizing groups result selection with
  | zero => cases collected
  | succ allowance ih =>
      have inside {selections : List Selection}
          (all : selections.foldlM (scope.collect object allowance) groups = .ok result) :
          result.DistinctKeys :=
        foldlM_preserves (fun _ _ _ _ stepped kept => ih stepped kept) all distinct
      cases selection with
      | field node selections =>
          rcases guarded_eq_ok collected with rfl | added
          · exact distinct
          · cases added
            exact distinctKeys_addOccurrence distinct _
      | spread name directives =>
          rcases guarded_eq_ok collected with rfl | entered
          · exact distinct
          · cases found : scope.fragments.find? name.item with
            | none =>
                rw [found] at entered
                cases entered
            | some fragment =>
                rw [found] at entered
                rcases guarded_eq_ok entered with rfl | all
                · exact distinct
                · exact inside all
      | inline condition directives selections =>
          rcases guarded_eq_ok collected with rfl | entered
          · exact distinct
          · rcases guarded_eq_ok entered with rfl | all
            · exact distinct
            · exact inside all

private theorem distinctKeys_of_collectAll {allowance : Nat} {lists : List (List Selection)}
    {groups : Entries Group} (collected : scope.collectAll object allowance lists = .ok groups) :
    groups.DistinctKeys :=
  foldlM_preserves (fun _ _ _ _ stepped kept => distinctKeys_of_collect stepped kept)
    collected Entries.distinctKeys_nil

end PlanScope

theorem PlacedPlan.arrange_perm (order : KeyOrder) (fields : List PlacedPlan) :
    (arrange order fields).Perm (fields.map plan) := by
  cases order with
  | selection => exact .refl _
  | schema => exact (List.mergeSort_perm fields _).map plan

/-! ### Planning -/

namespace PlanScope

variable {scope : PlanScope} {object : ObjectType}
variable {planInner : ObjectIndex → List (List Selection) → Except PlanError Plan}

/-- Whether what is planned on an object type is for that type, and fits it. -/
def PlansFitting (scope : PlanScope)
    (planInner : ObjectIndex → List (List Selection) → Except PlanError Plan) : Prop :=
  ∀ id lists plan, planInner id lists = .ok plan →
    plan.object = id ∧ ∃ object, plan.Fits scope.schema object

private theorem planTypename_fits {key : String} {group : Group} {placed : PlacedPlan}
    (planned : planTypename key group = .ok placed) :
    placed.plan.Fits scope.schema object ∧ placed.plan.key = key := by
  simp only [planTypename] at planned
  split at planned
  · cases planned
    exact ⟨.typename key _, rfl⟩
  · cases planned

private theorem planField_fits {field : ObjectField} {place : Nat} {key : String} {group : Group}
    {placed : PlacedPlan} (inner : scope.PlansFitting planInner)
    (found : object.fields.find? group.first.node.name.item = some field)
    (planned : scope.planField planInner field place key group = .ok placed) :
    placed.plan.Fits scope.schema object ∧ placed.plan.key = key := by
  obtain ⟨arguments, _, planned⟩ := bind_eq_ok.mp planned
  cases ofObject : field.resolution.shape.object? with
  | none =>
      simp only [ofObject] at planned
      split at planned
      · cases planned
        exact ⟨.leaf key _ arguments found ofObject, rfl⟩
      · cases planned
  | some id =>
      simp only [ofObject] at planned
      split at planned
      · cases planned
      · obtain ⟨plan, innerPlanned, planned⟩ := bind_eq_ok.mp planned
        cases planned
        obtain ⟨rfl, type, fits⟩ := inner _ _ plan innerPlanned
        exact ⟨.composite key _ arguments found ofObject fits.found fits.distinct fits.fields,
          rfl⟩

private theorem planGroup_fits {key : String} {group : Group} {placed : PlacedPlan}
    (inner : scope.PlansFitting planInner)
    (planned : scope.planGroup planInner object key group = .ok placed) :
    placed.plan.Fits scope.schema object ∧ placed.plan.key = key := by
  simp only [planGroup] at planned
  split at planned
  · cases planned
  · split at planned
    · exact planTypename_fits planned
    · split at planned
      · rename_i place field _ found
        exact planField_fits inner found planned
      · cases planned

/-- What is planned fits the schema, however deep the selections lead. -/
theorem planSelections_fits (scope : PlanScope) (allowance : Nat) :
    scope.PlansFitting (scope.planSelections allowance) := by
  induction allowance with
  | zero =>
      intro id lists plan planned
      cases planned
  | succ allowance ih =>
      -- What is planned on the objects of a field has one step less of the allowance.
      intro id lists plan planned
      simp only [planSelections] at planned
      cases found : scope.schema.object? id with
      | none =>
          rw [found] at planned
          cases planned
      | some object =>
          rw [found] at planned
          obtain ⟨groups, collected, planned⟩ := bind_eq_ok.mp planned
          obtain ⟨placed, each, planned⟩ := bind_eq_ok.mp planned
          cases planned
          have distinct : groups.DistinctKeys := distinctKeys_of_collectAll collected
          have eachFits : List.Forall₂ (fun placed group =>
              placed.plan.Fits scope.schema object ∧ placed.plan.key = group.1)
                placed groups :=
            (forall₂_of_mapM_eq_ok each).flip.imp fun _ _ planned => planGroup_fits ih planned
          obtain ⟨fits, keysMatch⟩ := (List.forall₂_and_left _ _).mp eachFits
          have sameKeys : (placed.map PlacedPlan.plan).map PlannedField.key = groups.keys := by
            rw [List.map_map, ← List.forall₂_eq_eq_eq]
            exact List.forall₂_map_left_iff.mpr (List.forall₂_map_right_iff.mpr keysMatch)
          have arranged := PlacedPlan.arrange_perm scope.order placed
          refine ⟨rfl, object, found, ?_, ?_⟩
          · rw [(arranged.map PlannedField.key).nodup_iff, sameKeys]
            exact distinct
          · intro planned member
            rw [arranged.mem_iff, List.mem_map] at member
            obtain ⟨one, placedMember, rfl⟩ := member
            exact fits one placedMember

end PlanScope

def Schema.ofHeroes : Schema :=
  let heroes : ObjectField :=
    ⟨"heroes", .list (.named "Hero" false) true, .empty,
      ⟨.passthrough "heroes", .list (.object 1 false) true⟩⟩
  let name : ObjectField :=
    ⟨"name", .named "String" true, .empty, ⟨.passthrough "name", .scalar .string true⟩⟩
  ⟨0, [⟨"Query", .ofEntries [("heroes", heroes)]⟩, ⟨"Hero", .ofEntries [("name", name)]⟩]⟩

def PlanScope.ofHeroes : PlanScope := ⟨.ofHeroes, .empty, ⟨[], []⟩, .selection⟩

def Selection.ofHeroes : List Selection :=
  let plain (name : String) (column : Nat) : FieldNode := ⟨none, ⟨name, ⟨1, column⟩⟩, [], []⟩
  [.field (plain "heroes" 3)
    [.field (plain "__typename" 12) [], .field (plain "name" 23) []]]

def Plan.ofHeroes : Plan :=
  ⟨0, [.composite "heroes" ⟨1, 3⟩ "heroes" [] 1
    [.typename "__typename" ⟨1, 12⟩, .leaf "name" ⟨1, 23⟩ "name" []]]⟩

example : PlanScope.ofHeroes.plan Selection.ofHeroes = .ok .ofHeroes := rfl

def Context.ofHeroes : Context :=
  .root (.record [("heroes", .sequence
    [.record [("name", .string "first")], .record [("name", .null)], .null])]) []

end StagedResolver
