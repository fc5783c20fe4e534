/-
The two kinds of responses.

A request is refused as a whole, with errors that have no path, or it is answered with data,
with errors that each have a path and a place.  Nothing goes wrong inside: compiled schemas
have all the object types that they mention, and plans fit the schema they are made for.
-/
import StagedResolver.Proofs.Execution.Failure
import StagedResolver.Proofs.Plan.Termination
import StagedResolver.Proofs.Response.Rendering

namespace StagedResolver

def Phase.beforeResolution : List Phase := [.operationParsing, .operationValidation, .variable]

/-- Whether a response refuses a request as a whole, and says why. -/
structure Response.Refuses (response : Response) : Prop where
  noData : response.data = none
  explained : response.errors ≠ []
  errors : ∀ error ∈ response.errors, error.path = none ∧ error.phase ∈ Phase.beforeResolution

/-- Whether a response gives data, and all its errors are those of fields. -/
structure Response.Answers (response : Response) : Prop where
  hasData : ∃ data, response.data = some data
  errors : ∀ error ∈ response.errors, (∃ first rest, error.path = some (first :: rest)) ∧
    (∃ position, error.locations = [position]) ∧ error.phase = .resolver

namespace Response

variable {response : Response}

private theorem phase_ne_internal (kinds : response.Refuses ∨ response.Answers) :
    ∀ error ∈ response.errors, error.phase ≠ .internal := by
  intro error member isInternal
  rcases kinds with refuses | answers
  · have early := (refuses.errors error member).2
    rw [isInternal] at early
    simp [Phase.beforeResolution] at early
  · have ofField := (answers.errors error member).2.2
    rw [isInternal] at ofField
    cases ofField

theorem at?_toJson (kinds : response.Refuses ∨ response.Answers) :
    (∃ document, response.toJson.at? [.key "data"] = some document) ∨
      ∃ first rest, response.toJson.at? [.key "errors"] = some (.array (first :: rest)) := by
  obtain ⟨data, errors, style⟩ := response
  rcases kinds with refuses | answers
  · have noData : data = none := refuses.noData
    have explained : errors ≠ [] := refuses.explained
    subst noData
    obtain ⟨first, rest, rfl⟩ := List.exists_cons_of_ne_nil explained
    exact .inr ⟨first.toJson, rest.map ResponseError.toJson, rfl⟩
  · obtain ⟨value, dataIs⟩ := answers.hasData
    have isData : data = some value := dataIs
    subst isData
    exact .inl ⟨value.toJson style, rfl⟩

end Response

/-- Whether a refusal is up to the request, and says what is wrong with it. -/
def Refusal.OfRequest : Refusal → Prop
  | .document _ => True
  | .choice _ => True
  | .validity _ => True
  | .assignment errors => errors ≠ []
  | .plan error => error.OfRequest

private theorem VariableFault.phase_mem (fault : VariableFault) :
    fault.phase ∈ Phase.beforeResolution := by
  cases fault with
  | notScalar => exact .tail _ (.head _)
  | missing => exact .tail _ (.tail _ (.head _))
  | invalid => exact .tail _ (.tail _ (.head _))

private theorem Refusal.OfRequest.refuses {refusal : Refusal} (ofRequest : refusal.OfRequest) :
    (Response.refusal refusal.errors).Refuses := by
  have single (phase : Phase) (message : String) (positions : List Position)
      (early : phase ∈ Phase.beforeResolution) :
      (Response.refusal [.ofRequest phase message positions]).Refuses :=
    ⟨rfl, List.cons_ne_nil _ _, List.forall_mem_singleton.mpr ⟨rfl, early⟩⟩
  cases refusal with
  | document error => exact single _ _ _ (.head _)
  | choice error => exact single _ _ _ (.tail _ (.head _))
  | validity error => exact single _ _ _ (.tail _ (.head _))
  | assignment faults =>
      refine ⟨rfl, ?_, ?_⟩
      · intro noErrors
        exact ofRequest (List.map_eq_nil_iff.mp noErrors)
      · intro error member
        obtain ⟨fault, _, rfl⟩ := List.mem_map.mp member
        exact ⟨rfl, fault.phase_mem⟩
  | plan fault =>
      have notInternal : fault.isInternal = false := ofRequest
      simp only [errors, notInternal, Bool.false_eq_true, if_false]
      exact single _ _ _ (.tail _ (.head _))

private theorem Assignment.fails_ofRequest (definitions : List VariableDefinition)
    (provided : Entries Json) :
    FailsAmong (fun faults => faults ≠ []) (Assignment.ofRequest definitions provided) := by
  rw [ofRequest]
  cases found : faults definitions provided with
  | nil => exact .ok _
  | cons first rest => exact .error (List.cons_ne_nil _ _)

namespace Engine

variable {engine : Engine} {request : Request}

/-- With a closed schema every refusal is up to the request. -/
theorem prepare_fails (closed : engine.schema.Closed) (request : Request) :
    FailsAmong Refusal.OfRequest (engine.prepare request) := by
  have early {ε α : Type} (computation : Except ε α) (view : ε → Refusal)
      (ofRequest : ∀ fault, (view fault).OfRequest) :
      FailsAmong Refusal.OfRequest (computation.mapError view) :=
    FailsAmong.mapError (fun _ _ => trivial : FailsAmong (fun _ => True) computation)
      fun fault _ => ofRequest fault
  unfold prepare
  apply (early _ .document fun _ => trivial).bind
  intro document _
  apply (early _ .choice fun _ => trivial).bind
  intro operation _
  apply (early _ .validity fun _ => trivial).bind
  intro _ checked
  have accepted := mapError_eq_ok.mp checked
  have assigned : FailsAmong Refusal.OfRequest
      ((Assignment.ofRequest operation.definitions request.given).mapError .assignment) :=
    (Assignment.fails_ofRequest _ _).mapError fun _ notEmpty => notEmpty
  apply assigned.bind
  intro assignment _
  have planFails := @PlanScope.fails_plan
    ⟨engine.schema, document.fragments, assignment, engine.settings.keyOrder⟩ document rfl
    engine.settings.maxDepth operation.selections accepted
  have ofRequest (fault : PlanError)
      (isFault : engine.schema.PlanFault engine.schema.query fault) :
      (Refusal.plan fault).OfRequest :=
    isFault.ofRequest_of_closed closed .query
  exact planFails.mapError ofRequest

theorem fits_of_prepare {plan : Plan} (prepared : engine.prepare request = .ok plan) :
    ∃ object, plan.Fits engine.schema object := by
  obtain ⟨scope, selections, sameSchema, planned⟩ := planned_of_prepare prepared
  obtain ⟨_, fits⟩ := scope.planSelections_fits _ _ _ plan planned
  rw [sameSchema] at fits
  exact fits

end Engine

/-! ### Requests that are answered -/

/-- A value never shows that a plan does not fit the schema. -/
theorem Site.fault?_ne_broken (site : Site) : site.fault? ≠ some .broken := by
  intro isBroken
  unfold Site.fault? at isBroken
  split at isBroken
  · cases isBroken
  · split at isBroken
    · split at isBroken
      · cases isBroken
      · cases isBroken
    · split at isBroken
      · cases isBroken
      · cases isBroken
    · unfold Shape.fault? at isBroken
      split at isBroken
      · split at isBroken
        · cases isBroken
        · cases isBroken
      · split at isBroken
        · cases isBroken
        · cases isBroken
      · split at isBroken
        · cases isBroken
        · cases isBroken

theorem PlannedField.Explains.toResponse {schema : Schema} {level : ReportLevel}
    {object : ObjectType} {context : Context} {planned : PlannedField} {error : FieldError}
    (explained : planned.Explains schema level object context error) :
    (∃ first rest, error.toResponse.path = some (first :: rest)) ∧
      (∃ position, error.toResponse.locations = [position]) ∧
      error.toResponse.phase = .resolver := by
  obtain ⟨site, rest, target, _, pathIs, _, faultIs, _⟩ := explained
  refine ⟨⟨_, rest, congrArg some pathIs⟩, ⟨_, rfl⟩, ?_⟩
  have notBroken : error.fault ≠ .broken := by
    intro isBroken
    rw [isBroken] at faultIs
    exact target.fault?_ne_broken faultIs
  show error.phase = .resolver
  unfold FieldError.phase
  split
  · rename_i isBroken
    exact absurd isBroken notBroken
  · rfl

namespace Engine

variable {engine : Engine} {request : Request}

private theorem answers_of_prepare {plan : Plan} (prepared : engine.prepare request = .ok plan) :
    (engine.execute request).response.Answers := by
  obtain ⟨scope, selections, sameSchema, planned⟩ := planned_of_prepare prepared
  have accounts := Schema.execute_accounts planned engine.settings.level
    (engine.rootContext request)
  rw [sameSchema] at accounts
  obtain ⟨object, data, _, resultIs, explained, _⟩ := accounts
  rw [execute_prepared prepared]
  refine ⟨⟨data, resultIs⟩, ?_⟩
  intro error member
  obtain ⟨fieldError, fieldMember, rfl⟩ := List.mem_map.mp member
  obtain ⟨field, _, fieldExplains⟩ := explained fieldError fieldMember
  exact fieldExplains.toResponse

/-- Of a compiled schema every request is refused as a whole, with reasons that are up to the
request, or answered with data and the errors of fields.  No error is internal: whatever
position of an object type is looked up, in planning and in resolution, the schema has it. -/
theorem execute_classified {declaration : SchemaDeclaration} {schema : Schema}
    (compiled : declaration.compile = .ok schema) (settings : Settings) (request : Request) :
    let engine : Engine := ⟨schema, settings⟩
    let response := (engine.execute request).response
    (response.Refuses ∨ response.Answers) ∧
      (∀ error ∈ response.errors, error.phase ≠ .internal) ∧
      schema.Closed ∧
      (∀ id, engine.prepare request ≠ .error (.plan (.missingObject id))) ∧
      (∀ plan, engine.prepare request = .ok plan → ∃ object, plan.Fits schema object) ∧
      ((∃ document, response.toJson.at? [.key "data"] = some document) ∨
        ∃ first rest, response.toJson.at? [.key "errors"] = some (.array (first :: rest))) := by
  intro engine response
  have closed : engine.schema.Closed := Schema.closed_of_compile compiled
  have kinds : response.Refuses ∨ response.Answers := by
    cases prepared : engine.prepare request with
    | error refusal =>
        have refuses := (engine.prepare_fails closed request refusal prepared).refuses
        simp only [response, execute_refused prepared]
        exact .inl refuses
    | ok plan => exact .inr (answers_of_prepare prepared)
  refine ⟨kinds, Response.phase_ne_internal kinds, closed, ?_, ?_, Response.at?_toJson kinds⟩
  · intro id missing
    have ofRequest : (PlanError.missingObject id).OfRequest :=
      engine.prepare_fails closed request _ missing
    cases ofRequest
  · intro plan prepared
    exact fits_of_prepare prepared

theorem execute_classified_ofQuotient :
    SchemaDeclaration.ofQuotient.compile = .ok Engine.ofQuotient.schema ∧
      (Engine.ofQuotient.execute .ofQuotient).response.Answers := by
  obtain ⟨schema, compiled, same⟩ := bind_eq_ok.mp ofDeclaration_ofQuotient
  cases same
  refine ⟨compiled, ?_⟩
  obtain ⟨kinds, _⟩ := execute_classified compiled .standard .ofQuotient
  rcases kinds with refuses | answers
  · have noData := data_ofQuotient.symm.trans refuses.noData
    cases noData
  · exact answers

end Engine

end StagedResolver
