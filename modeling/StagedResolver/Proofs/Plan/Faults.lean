/-
Faults of requests.

What is wrong with a directive, an argument, a fragment or a key is found at a position in
the query.  No fault of planning has no position but that planning gives up for depth, and
that an object type is missing: the one that is planned on, or one in the shape of a field.
-/
import StagedResolver.Proofs.Plan.Expansion
import StagedResolver.Proofs.Schema.Compiled

namespace StagedResolver

/-- Whether a fault of planning is up to the request. -/
def PlanError.OfRequest (fault : PlanError) : Prop := fault.isInternal = false

abbrev FailsOfRequest {α : Type} (computation : Except PlanError α) : Prop :=
  FailsAmong PlanError.OfRequest computation

namespace InputValue

variable {ε : Type} {meaning : String → Except ε Literal} {faults : ε → Prop}

mutual

theorem fails_substitute (each : ∀ name, FailsAmong faults (meaning name)) :
    (value : InputValue) → FailsAmong faults (value.substitute meaning)
  | .variable name => each name
  | .null | .boolean _ | .integer _ | .decimal _ | .string _ | .enumeration _ => .ok _
  | .list items => (fails_substituteItems each items).bind fun _ _ => .ok _
  | .object members => (fails_substituteMembers each members).bind fun _ _ => .ok _

theorem fails_substituteItems (each : ∀ name, FailsAmong faults (meaning name)) :
    (items : List InputValue) → FailsAmong faults (substituteItems meaning items)
  | [] => .ok _
  | item :: rest => (fails_substitute each item).bind fun _ _ =>
      (fails_substituteItems each rest).bind fun _ _ => .ok _

theorem fails_substituteMembers (each : ∀ name, FailsAmong faults (meaning name)) :
    (members : List (String × InputValue)) → FailsAmong faults (substituteMembers meaning members)
  | [] => .ok _
  | (_, held) :: rest => (fails_substitute each held).bind fun _ _ =>
      (fails_substituteMembers each rest).bind fun _ _ => .ok _

end

end InputValue

namespace Assignment

variable {assignment : Assignment}

private theorem failsOfRequest_resolve (value : Located InputValue) :
    FailsOfRequest (assignment.resolve value) := by
  apply InputValue.fails_substitute
  intro name
  split
  · exact .ok _
  · exact .error rfl

private theorem failsOfRequest_admits (directive : Directive) :
    FailsOfRequest (assignment.admits directive) := by
  rw [admits]
  split
  · split
    · exact .error rfl
    · refine (failsOfRequest_resolve _).bind fun literal _ => ?_
      split
      · exact .ok _
      · exact .error rfl
  · exact .ok _

private theorem failsOfRequest_admitsAll (directives : List Directive) :
    FailsOfRequest (assignment.admitsAll directives) := by
  induction directives with
  | nil => exact .ok _
  | cons directive rest ih => exact .guarded (failsOfRequest_admits directive) ih

private theorem failsOfRequest_argumentValue? (field : ObjectField) (node : FieldNode)
    (name : String)
    (argument : FieldArgument) :
    FailsOfRequest (assignment.argumentValue? field node name argument) := by
  rw [argumentValue?]
  split
  · refine (failsOfRequest_resolve _).bind fun literal _ => ?_
    split
    · exact .ok _
    · exact .error rfl
  · split
    · exact .ok _
    · split
      · exact .error rfl
      · exact .ok _

private theorem failsOfRequest_argumentRecord (field : ObjectField) (node : FieldNode) :
    FailsOfRequest (assignment.argumentRecord field node) := by
  rw [argumentRecord]
  split
  · exact .error rfl
  · generalize field.arguments.entries = declared
    induction declared with
    | nil => exact .ok _
    | cons argument rest ih =>
        refine (failsOfRequest_argumentValue? field node _ _).bind fun _ _ => ?_
        exact ih.bind fun _ _ => .ok _

end Assignment

namespace PlanScope

variable {scope : PlanScope} {object : ObjectType}

private theorem failsOfRequest_isMeantFor (condition : Located String) :
    FailsOfRequest (scope.isMeantFor object condition) := by
  rw [isMeantFor]
  split
  · exact .ok _
  · split
    · exact .ok _
    · split
      · exact .error rfl
      · exact .error rfl

theorem failsOfRequest_counts (selection : Selection) :
    FailsOfRequest (scope.counts object selection) := by
  cases selection with
  | field node selections => exact Assignment.failsOfRequest_admitsAll _
  | spread name directives =>
      refine .guarded (Assignment.failsOfRequest_admitsAll _) ?_
      split
      · exact .error rfl
      · exact .guarded (failsOfRequest_isMeantFor _) (Assignment.failsOfRequest_admitsAll _)
  | inline condition directives selections =>
      refine .guarded (Assignment.failsOfRequest_admitsAll _) ?_
      cases condition with
      | none => exact .ok _
      | some required => exact failsOfRequest_isMeantFor required

theorem failsOfRequest_reachedAll {reach : Selection → Except PlanError (List Occurrence)}
    {selections : List Selection}
    (each : ∀ selection ∈ selections, FailsOfRequest (reach selection)) :
    FailsOfRequest (reachedAll reach selections) := by
  induction selections with
  | nil => exact .ok _
  | cons selection rest ih =>
      obtain ⟨first, others⟩ := List.forall_mem_cons.mp each
      exact first.bind fun _ _ => (ih others).bind fun _ _ => .ok _

end PlanScope

theorem FieldNode.kind_of_conflict {key : String} {first other : FieldNode}
    {fault : PlanError} (conflict : first.conflict? key other = some fault) :
    (∃ name otherName position, fault = .differentFields key name otherName position) ∨
      ∃ position, fault = .differentArguments key position := by
  rw [conflict?] at conflict
  split at conflict
  · cases conflict
    exact .inl ⟨_, _, _, rfl⟩
  · split at conflict
    · cases conflict
    · cases conflict
      exact .inr ⟨_, rfl⟩

private theorem FieldNode.ofRequest_of_conflict {key : String} {first other : FieldNode}
    {fault : PlanError} (conflict : first.conflict? key other = some fault) :
    fault.OfRequest := by
  rcases kind_of_conflict conflict with ⟨name, otherName, position, rfl⟩ | ⟨position, rfl⟩
  · rfl
  · rfl

/-- The faults of planning on an object type: those of the request, and that an object type
is missing, be it the one that is planned on or one that the schema mentions. -/
inductive Schema.PlanFault (schema : Schema) (planned : ObjectIndex) : PlanError → Prop where
  | ofRequest {fault : PlanError} (isOfRequest : fault.OfRequest) : PlanFault schema planned fault
  | missing {id : ObjectIndex} (isMissing : schema.object? id = none)
      (known : id = planned ∨ schema.Mentions id) : PlanFault schema planned (.missingObject id)

namespace Schema.PlanFault

variable {schema : Schema} {planned : ObjectIndex} {fault : PlanError}

theorem ne_tooDeep (isFault : schema.PlanFault planned fault) : fault ≠ .tooDeep := by
  rintro rfl
  cases isFault with
  | ofRequest impossible => cases impossible

/-- A schema that is closed has all object types that it mentions. -/
theorem ofRequest_of_closed (isFault : schema.PlanFault planned fault) (closed : schema.Closed)
    (mentioned : schema.Mentions planned) : fault.OfRequest := by
  cases isFault with
  | ofRequest isOfRequest => exact isOfRequest
  | @missing id isMissing known =>
      have inRange : id < schema.objects.length := by
        rcases known with rfl | known
        · exact closed id mentioned
        · exact closed id known
      exact absurd inRange (Nat.not_lt.mpr (object?_eq_none_iff.mp isMissing))

end Schema.PlanFault

namespace PlanScope

variable {scope : PlanScope} {object : ObjectType} {id : ObjectIndex}

theorem fails_planGroup
    {planInner : ObjectIndex → List (List Selection) → Except PlanError Plan} {key : String}
    {group : Group} (objectIs : scope.schema.object? id = some object)
    (inner : ∀ innerId, FailsAmong (scope.schema.PlanFault innerId)
      (planInner innerId group.selections)) :
    FailsAmong (scope.schema.PlanFault id) (scope.planGroup planInner object key group) := by
  simp only [planGroup]
  split
  · rename_i conflict isConflict
    obtain ⟨other, _, isFault⟩ := List.exists_of_findSome?_eq_some isConflict
    exact .error (.ofRequest (FieldNode.ofRequest_of_conflict isFault))
  · split
    · rw [planTypename]
      split
      · exact .ok _
      · exact .error (.ofRequest rfl)
    · split
      · rename_i field _ found
        refine ((Assignment.failsOfRequest_argumentRecord _ _).mono fun _ => .ofRequest).bind
          fun arguments _ => ?_
        split
        · rename_i innerId ofObject
          have mentioned : scope.schema.Mentions innerId :=
            .shape (List.mem_of_getElem? objectIs) (Entries.mem_of_find? found) ofObject
          split
          · exact .error (.ofRequest rfl)
          · refine ((inner innerId).mono fun fault isFault => ?_).bind fun _ _ => .ok _
            cases isFault with
            | ofRequest isOfRequest => exact .ofRequest isOfRequest
            | missing isMissing known =>
                refine .missing isMissing (.inr ?_)
                rcases known with rfl | known
                · exact mentioned
                · exact known
        · split
          · exact .ok _
          · exact .error (.ofRequest rfl)
      · exact .error (.ofRequest rfl)

end PlanScope

end StagedResolver
