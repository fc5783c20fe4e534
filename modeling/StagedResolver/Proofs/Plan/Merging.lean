/-
What planning makes of occurrences.

The occurrences of a key are planned as one field, and what is selected on all of them
together is planned on the objects that the field produces.  A plan does not depend on
the allowance that it was made with.
-/
import StagedResolver.Proofs.Plan.Expansion

namespace StagedResolver

def selectionsOf (occurrences : List Occurrence) : List Selection :=
  occurrences.flatMap Occurrence.selections

private theorem Group.flatten_selections (group : Group) :
    group.selections.flatten = selectionsOf group.occurrences := by
  rw [selections, selectionsOf, List.flatMap]
  induction group.occurrences.map Occurrence.selections with
  | nil => rfl
  | cons list rest ih =>
      cases list with
      | nil => exact ih
      | cons selection others => exact congrArg ((selection :: others) ++ ·) ih

private theorem Group.selections_eq_nil (group : Group) :
    group.selections = [] ↔ selectionsOf group.occurrences = [] := by
  rw [← flatten_selections]
  constructor
  · intro nothing
    rw [nothing]
    rfl
  · intro nothing
    refine List.eq_nil_iff_forall_not_mem.mpr fun list member => ?_
    have isEmpty : list = [] := List.flatten_eq_nil_iff.mp nothing list member
    rw [selections, isEmpty] at member
    cases (List.mem_filter.mp member).2

namespace PlanScope

variable {scope : PlanScope} {object : ObjectType}

/-- Whether a field under a key is planned so, when `first` is where it is first selected,
`selected` is what is selected on it, and `planInner` says which plans these have. -/
inductive Places (scope : PlanScope) (planInner : ObjectIndex → List Selection → Plan → Prop)
    (object : ObjectType) (key : String) (first : FieldNode) (selected : List Selection) :
    PlacedPlan → Prop where
  | typename (isTypename : first.name.item = "__typename") (nothing : selected = []) :
      Places scope planInner object key first selected
        ⟨none, .typename key first.name.position⟩
  | leaf {place : Nat} {field : ObjectField} {arguments : Record}
      (isField : first.name.item ≠ "__typename")
      (placeIs : object.fields.position? first.name.item = some place)
      (fieldIs : object.fields.find? first.name.item = some field)
      (argumentsAre : scope.assignment.argumentRecord field first = .ok arguments)
      (noObject : field.resolution.shape.object? = none) (nothing : selected = []) :
      Places scope planInner object key first selected
        ⟨some place, .leaf key first.name.position first.name.item arguments⟩
  | composite {place : Nat} {field : ObjectField} {arguments : Record} {inner : ObjectIndex}
      {plan : Plan} (isField : first.name.item ≠ "__typename")
      (placeIs : object.fields.position? first.name.item = some place)
      (fieldIs : object.fields.find? first.name.item = some field)
      (argumentsAre : scope.assignment.argumentRecord field first = .ok arguments)
      (ofObject : field.resolution.shape.object? = some inner) (something : selected ≠ [])
      (planned : planInner inner selected plan) :
      Places scope planInner object key first selected
        ⟨some place, .composite key first.name.position first.name.item arguments
          plan.object plan.fields⟩

section Places

variable {planInner : ObjectIndex → List Selection → Plan → Prop} {key : String}
variable {first : FieldNode} {selected : List Selection} {placed : PlacedPlan}

theorem Places.replace {other : ObjectIndex → List Selection → Plan → Prop}
    {replacement : List Selection}
    (places : scope.Places planInner object key first selected placed)
    (sameEmpty : selected = [] ↔ replacement = [])
    (plans : ∀ field inner plan, object.fields.find? first.name.item = some field →
      field.resolution.shape.object? = some inner → planInner inner selected plan →
        other inner replacement plan) :
    scope.Places other object key first replacement placed := by
  cases places with
  | typename isTypename nothing => exact .typename isTypename (sameEmpty.mp nothing)
  | leaf isField placeIs fieldIs argumentsAre noObject nothing =>
      exact .leaf isField placeIs fieldIs argumentsAre noObject (sameEmpty.mp nothing)
  | composite isField placeIs fieldIs argumentsAre ofObject something planned =>
      exact .composite isField placeIs fieldIs argumentsAre ofObject (mt sameEmpty.mpr something)
        (plans _ _ _ fieldIs ofObject planned)

theorem Places.key_eq (places : scope.Places planInner object key first selected placed) :
    placed.plan.key = key := by
  cases places with
  | typename => rfl
  | leaf => rfl
  | composite => rfl

end Places

theorem planSelections_flatten (allowance : Nat) (id : ObjectIndex)
    (lists : List (List Selection)) :
    scope.planSelections allowance id lists =
      scope.planSelections allowance id [lists.flatten] := by
  cases allowance with
  | zero => rfl
  | succ allowance =>
      simp only [planSelections, collectAll, List.flatten_cons, List.flatten_nil,
        List.append_nil]

/-- A key is planned exactly when its occurrences agree and their selections are planned. -/
theorem planGroup_eq_ok {allowance : Nat} {key : String} {group : Group}
    {placed : PlacedPlan} :
    scope.planGroup (scope.planSelections allowance) object key group = .ok placed ↔
      group.conflict? key = none ∧
        scope.Places (fun id selected plan =>
            scope.planSelections allowance id [selected] = .ok plan)
          object key group.first.node (selectionsOf group.occurrences) placed := by
  have nothing := group.selections_eq_nil
  have inner (id : ObjectIndex) : scope.planSelections allowance id group.selections =
      scope.planSelections allowance id [selectionsOf group.occurrences] := by
    rw [planSelections_flatten, group.flatten_selections]
  simp only [planGroup]
  constructor
  · intro planned
    cases conflict : group.conflict? key with
    | some fault =>
        rw [conflict] at planned
        cases planned
    | none =>
        rw [conflict] at planned
        refine ⟨rfl, ?_⟩
        by_cases isTypename : group.first.node.name.item = "__typename"
        · simp only [isTypename, if_true, planTypename] at planned
          split at planned
          · rename_i isEmpty
            cases planned
            exact .typename isTypename (nothing.mp (List.isEmpty_iff.mp isEmpty))
          · cases planned
        · simp only [isTypename, if_false] at planned
          split at planned
          · rename_i place field placeIs fieldIs
            obtain ⟨arguments, argumentsAre, planned⟩ := bind_eq_ok.mp planned
            cases ofObject : field.resolution.shape.object? with
            | none =>
                simp only [ofObject] at planned
                split at planned
                · rename_i isEmpty
                  cases planned
                  exact .leaf isTypename placeIs fieldIs argumentsAre ofObject
                    (nothing.mp (List.isEmpty_iff.mp isEmpty))
                · cases planned
            | some id =>
                simp only [ofObject] at planned
                split at planned
                · cases planned
                · rename_i notEmpty
                  obtain ⟨plan, innerPlanned, planned⟩ := bind_eq_ok.mp planned
                  cases planned
                  rw [inner] at innerPlanned
                  exact .composite isTypename placeIs fieldIs argumentsAre ofObject
                    (fun isNil => notEmpty (List.isEmpty_iff.mpr (nothing.mpr isNil)))
                    innerPlanned
          · cases planned
  · rintro ⟨agree, places⟩
    rw [agree]
    cases places with
    | typename isTypename isNil =>
        simp only [isTypename, if_true, planTypename, nothing.mpr isNil, List.isEmpty_nil]
    | leaf isField placeIs fieldIs argumentsAre noObject isNil =>
        simp only [isField, if_false, placeIs, fieldIs, planField, argumentsAre, noObject,
          nothing.mpr isNil, List.isEmpty_nil, if_true]
        rfl
    | @composite place field arguments id plan isField placeIs fieldIs argumentsAre ofObject
        something planned =>
        have notEmpty : group.selections.isEmpty = false := by
          rw [List.isEmpty_eq_false_iff]
          exact mt nothing.mp something
        simp only [isField, if_false, placeIs, fieldIs, planField, argumentsAre, ofObject,
          notEmpty]
        rw [inner]
        exact bind_eq_ok.mpr ⟨arguments, rfl, bind_eq_ok.mpr ⟨plan, planned, rfl⟩⟩

/-! ### Plans without an allowance -/

/-- Whether selections on an object type have a plan, within some allowance. -/
def PlansTo (scope : PlanScope) (id : ObjectIndex) (selections : List Selection)
    (plan : Plan) : Prop :=
  ∃ allowance, scope.planSelections allowance id [selections] = .ok plan

private theorem planGroup_approximates {planInner other : ObjectIndex → List (List Selection) →
      Except PlanError Plan}
    (inner : ∀ id lists, Approximates (planInner id lists) (other id lists)) (key : String)
    (group : Group) :
    Approximates (scope.planGroup planInner object key group)
      (scope.planGroup other object key group) := by
  simp only [planGroup]
  split
  · exact .refl _
  · split
    · exact .refl _
    · split
      · refine (Approximates.refl _).bind fun arguments => ?_
        split
        · split
          · exact .refl _
          · exact (inner _ _).bind fun _ => .refl _
        · exact .refl _
      · exact .refl _

theorem planSelections_approximates {fewer more : Nat} (le : fewer ≤ more)
    (id : ObjectIndex) (lists : List (List Selection)) :
    Approximates (scope.planSelections fewer id lists)
      (scope.planSelections more id lists) := by
  induction fewer generalizing more id lists with
  | zero => exact .inl rfl
  | succ fewer ih =>
      cases more with
      | zero => cases le
      | succ more =>
          have less := Nat.le_of_succ_le_succ le
          simp only [planSelections, collectAll_eq_reachedAll]
          split
          · exact .refl _
          · refine Approximates.bind ?_ fun groups => ?_
            · exact (reachedAll_approximates (reached_approximates less) _).map groupsOf
            · refine Approximates.bind (.mapM (fun group => ?_) groups) fun _ => .refl _
              exact planGroup_approximates (ih less) group.1 group.2

private theorem planSelections_of_le {fewer more : Nat} {id : ObjectIndex}
    {lists : List (List Selection)} {plan : Plan}
    (planned : scope.planSelections fewer id lists = .ok plan) (le : fewer ≤ more) :
    scope.planSelections more id lists = .ok plan :=
  (planSelections_approximates le id lists).eq_of_ok planned

theorem PlansTo.unique {id : ObjectIndex} {selections : List Selection} {first second : Plan}
    (plansTo : scope.PlansTo id selections first)
    (other : scope.PlansTo id selections second) : first = second := by
  obtain ⟨allowance, planned⟩ := plansTo
  obtain ⟨otherAllowance, otherPlanned⟩ := other
  have enough := planSelections_of_le planned (Nat.le_max_left allowance otherAllowance)
  have otherEnough :=
    planSelections_of_le otherPlanned (Nat.le_max_right allowance otherAllowance)
  rw [enough] at otherEnough
  exact Except.ok.inj otherEnough

/-- Whether a key is planned so when selections come to some occurrences. -/
def PlansKey (scope : PlanScope) (object : ObjectType) (occurrences : List Occurrence)
    (key : String) (placed : PlacedPlan) : Prop :=
  ∃ group, Group.ofOccurrences? (occurrencesOf key occurrences) = some group ∧
    group.conflict? key = none ∧
      scope.Places scope.PlansTo object key group.first.node
        (selectionsOf (occurrencesOf key occurrences)) placed

private theorem plansKey_iff {occurrences : List Occurrence} {key : String} {group : Group}
    {placed : PlacedPlan}
    (groupIs : Group.ofOccurrences? (occurrencesOf key occurrences) = some group) :
    scope.PlansKey object occurrences key placed ↔ ∃ allowance,
      scope.planGroup (scope.planSelections allowance) object key group = .ok placed := by
  have occurrencesAre := Group.ofOccurrences?_eq_some.mp groupIs
  constructor
  · rintro ⟨other, otherIs, agree, places⟩
    rw [groupIs] at otherIs
    cases otherIs
    rw [occurrencesAre] at places
    cases places with
    | typename isTypename nothing =>
        exact ⟨0, planGroup_eq_ok.mpr ⟨agree, .typename isTypename nothing⟩⟩
    | leaf isField placeIs fieldIs argumentsAre noObject nothing =>
        exact ⟨0, planGroup_eq_ok.mpr
          ⟨agree, .leaf isField placeIs fieldIs argumentsAre noObject nothing⟩⟩
    | composite isField placeIs fieldIs argumentsAre ofObject something planned =>
        obtain ⟨allowance, planned⟩ := planned
        exact ⟨allowance, planGroup_eq_ok.mpr
          ⟨agree, .composite isField placeIs fieldIs argumentsAre ofObject something planned⟩⟩
  · rintro ⟨allowance, planned⟩
    obtain ⟨agree, places⟩ := planGroup_eq_ok.mp planned
    refine ⟨group, groupIs, agree, ?_⟩
    rw [occurrencesAre]
    exact places.replace .rfl fun _ _ _ _ _ innerPlanned => ⟨allowance, innerPlanned⟩

private theorem mapM_planGroup_of_le {fewer more : Nat} {groups : Entries Group}
    {placed : List PlacedPlan}
    (planned : groups.mapM (fun group =>
      scope.planGroup (scope.planSelections fewer) object group.1 group.2) = .ok placed)
    (le : fewer ≤ more) :
    groups.mapM (fun group =>
      scope.planGroup (scope.planSelections more) object group.1 group.2) = .ok placed := by
  refine (Approximates.mapM (fun group => ?_) groups).eq_of_ok planned
  exact planGroup_approximates (planSelections_approximates le) group.1 group.2

/-- Groups that are planned each within some allowance are all planned within one. -/
theorem exists_mapM_planGroup {groups : Entries Group} {placed : List PlacedPlan}
    (each : List.Forall₂ (fun group one => ∃ allowance,
      scope.planGroup (scope.planSelections allowance) object group.1 group.2 = .ok one)
        groups placed) :
    ∃ allowance, groups.mapM (fun group =>
      scope.planGroup (scope.planSelections allowance) object group.1 group.2) =
        .ok placed := by
  induction each with
  | nil => exact ⟨0, rfl⟩
  | @cons group one groups placed first _ ih =>
      obtain ⟨firstAllowance, firstPlanned⟩ := first
      obtain ⟨restAllowance, restPlanned⟩ := ih
      have larger (id : ObjectIndex) (lists : List (List Selection)) :=
        scope.planSelections_approximates (Nat.le_max_left firstAllowance restAllowance) id lists
      have firstEnough := (planGroup_approximates larger group.1 group.2).eq_of_ok firstPlanned
      have restEnough := mapM_planGroup_of_le restPlanned (Nat.le_max_right firstAllowance _)
      refine ⟨max firstAllowance restAllowance, ?_⟩
      rw [List.mapM_cons]
      exact bind_eq_ok.mpr ⟨one, firstEnough, bind_eq_ok.mpr ⟨placed, restEnough, rfl⟩⟩

private theorem forall₂_plansKey_iff {occurrences : List Occurrence} {placed : List PlacedPlan} :
    List.Forall₂ (scope.PlansKey object occurrences) (firstKeys occurrences) placed ↔
      List.Forall₂ (fun group one => ∃ allowance,
        scope.planGroup (scope.planSelections allowance) object group.1 group.2 = .ok one)
          (groupsOf occurrences) placed := by
  have each (group : String × Group) (member : group ∈ groupsOf occurrences)
      (one : PlacedPlan) :
      scope.PlansKey object occurrences group.1 one ↔ ∃ allowance,
        scope.planGroup (scope.planSelections allowance) object group.1 group.2 = .ok one := by
    apply plansKey_iff
    rw [Group.ofOccurrences?_eq_some]
    exact (occurrences_of_mem_groupsOf member).symm
  rw [← keys_groupsOf, Entries.keys, List.forall₂_map_left_iff]
  constructor
  · intro planned
    exact forall₂_imp_of_mem planned fun group member one => (each group member one).mp
  · intro planned
    exact forall₂_imp_of_mem planned fun group member one => (each group member one).mpr

theorem planned_groups {allowance : Nat} {id : ObjectIndex} {selections : List Selection}
    {plan : Plan} (planned : scope.planSelections (allowance + 1) id [selections] = .ok plan) :
    ∃ object occurrences placed, scope.schema.object? id = some object ∧
      scope.ComesTo object selections occurrences ∧
        List.Forall₂ (fun group one =>
          scope.planGroup (scope.planSelections allowance) object group.1 group.2 = .ok one)
            (groupsOf occurrences) placed ∧
          plan = ⟨id, PlacedPlan.arrange scope.order placed⟩ := by
  simp only [planSelections, collectAll_eq_reachedAll, List.flatten_singleton] at planned
  cases objectIs : scope.schema.object? id with
  | none =>
      rw [objectIs] at planned
      cases planned
  | some object =>
      rw [objectIs] at planned
      obtain ⟨groups, collected, planned⟩ := bind_eq_ok.mp planned
      obtain ⟨occurrences, reached, rfl⟩ := map_eq_ok.mp collected
      obtain ⟨placed, each, planned⟩ := bind_eq_ok.mp planned
      cases planned
      exact ⟨object, occurrences, placed, rfl, comesTo_iff.mpr ⟨_, reached⟩,
        forall₂_of_mapM_eq_ok each, rfl⟩

/-- Selections have a plan exactly when they come to occurrences whose keys are all
planned. -/
theorem plansTo_iff {id : ObjectIndex} {selections : List Selection} {plan : Plan} :
    scope.PlansTo id selections plan ↔
      ∃ object occurrences placed, scope.schema.object? id = some object ∧
        scope.ComesTo object selections occurrences ∧
          List.Forall₂ (scope.PlansKey object occurrences) (firstKeys occurrences) placed ∧
            plan = ⟨id, PlacedPlan.arrange scope.order placed⟩ := by
  constructor
  · rintro ⟨allowance, planned⟩
    cases allowance with
    | zero => cases planned
    | succ allowance =>
        obtain ⟨object, occurrences, placed, objectIs, comesTo, groupsPlanned, planIs⟩ :=
          planned_groups planned
        refine ⟨object, occurrences, placed, objectIs, comesTo, ?_, planIs⟩
        rw [forall₂_plansKey_iff]
        exact groupsPlanned.imp fun _ _ planned => ⟨allowance, planned⟩
  · rintro ⟨object, occurrences, placed, objectIs, comesTo, keysPlanned, rfl⟩
    obtain ⟨reachAllowance, reached⟩ := comesTo_iff.mp comesTo
    obtain ⟨planAllowance, planned⟩ :=
      exists_mapM_planGroup (forall₂_plansKey_iff.mp keysPlanned)
    have enough := reachedAll_of_le reached (Nat.le_max_left reachAllowance planAllowance)
    have eachEnough := mapM_planGroup_of_le planned (Nat.le_max_right reachAllowance _)
    refine ⟨max reachAllowance planAllowance + 1, ?_⟩
    simp only [planSelections, objectIs, collectAll_eq_reachedAll, List.flatten_singleton]
    refine bind_eq_ok.mpr ⟨groupsOf occurrences, map_eq_ok.mpr ⟨_, enough, rfl⟩, ?_⟩
    exact bind_eq_ok.mpr ⟨placed, eachEnough, rfl⟩

end PlanScope

end StagedResolver
