/-
Answers at different levels of reports.

The level of an engine reaches nothing but the reports of debug nodes.  Its answers have the
same response at every level, and the same reports but for the level that they carry; there are
none when reports are off.
-/
import StagedResolver.Proofs.Execution.Recording
import StagedResolver.Proofs.Expression.Transparency

namespace StagedResolver

/-- Reports that were made at some level, as they are made at this one. -/
def ReportLevel.restate (level : ReportLevel) (reports : List Report) : List Report :=
  if level = .off then [] else reports.map fun report => { report with level := level }

namespace ReportLevel

variable {level : ReportLevel}

private theorem restate_nil : level.restate [] = [] :=
  ite_self []

private theorem restate_append (first second : List Report) :
    level.restate (first ++ second) = level.restate first ++ level.restate second := by
  unfold restate
  split
  · rfl
  · exact List.map_append

private theorem told_restate (reports : List Report) :
    (level.restate reports).map Report.told =
      if level = .off then []
      else (reports.map fun report => (report.label, report.text)).map fun event =>
        (level, event) := by
  unfold restate
  split
  · rfl
  · rw [List.map_map, List.map_map]
    rfl

end ReportLevel

/-- Sightings are reported at a level as at any other that is not off. -/
theorem reportsAt_eq_restate (level : ReportLevel) (sightings : List Sighting) :
    reportsAt level sightings = level.restate (reportsAt .debug sightings) := by
  have reported : reportsAt .debug sightings =
      sightings.map fun sighting => ⟨.debug, sighting.label, sighting.value⟩ := if_neg (by decide)
  rw [reported, reportsAt, ReportLevel.restate, List.map_map]
  rfl

private theorem Source.evaluate_eq_restate (source : Source) (level : ReportLevel)
    (context : Context) :
    source.evaluate level context =
      ⟨(source.evaluate .debug context).result,
        level.restate (source.evaluate .debug context).reports⟩ := by
  cases source with
  | computed expression =>
      simp only [evaluate, Expression.evaluate, Evaluation.finish]
      rw [reportsAt_eq_restate level]
      cases (expression.run context []).outcome with
      | _ => rfl
  | _ => exact congrArg (Evaluated.mk _) ReportLevel.restate_nil.symm

/-- Whether a completion is another one but for its reports, which are made at a level. -/
structure Completion.Restates {α : Type} (level : ReportLevel) (completion plain : Completion α) :
    Prop where
  result : completion.result = plain.result
  errors : completion.errors = plain.errors
  reports : completion.reports = level.restate plain.reports

namespace Completion.Restates

variable {α β : Type} {level : ReportLevel} {completion plain : Completion α}

theorem still (silent : plain.reports = []) : plain.Restates level plain :=
  ⟨rfl, rfl, by rw [silent, ReportLevel.restate_nil]⟩

theorem andThen {next other : α → Completion β} (restates : completion.Restates level plain)
    (each : ∀ found, (next found).Restates level (other found)) :
    (completion.andThen next).Restates level (plain.andThen other) := by
  obtain ⟨result, errors, reports⟩ := restates
  simp only [Completion.andThen, result]
  cases plain.result with
  | none => exact ⟨rfl, errors, reports⟩
  | some found =>
      obtain ⟨nextResult, nextErrors, nextReports⟩ := each found
      constructor
      case result => exact nextResult
      case errors =>
        show completion.errors ++ (next found).errors = plain.errors ++ (other found).errors
        rw [errors, nextErrors]
      case reports =>
        show completion.reports ++ (next found).reports =
          level.restate (plain.reports ++ (other found).reports)
        rw [reports, nextReports, ReportLevel.restate_append]

theorem map {change : α → β} (restates : completion.Restates level plain) :
    (completion.map change).Restates level (plain.map change) :=
  ⟨congrArg (Option.map change) restates.result, restates.errors, restates.reports⟩

theorem under {segment : PathStep} (restates : completion.Restates level plain) :
    (completion.under segment).Restates level (plain.under segment) :=
  ⟨restates.result, congrArg (List.map _) restates.errors, restates.reports⟩

theorem after (restates : completion.Restates level plain) (reports : List Report) :
    (completion.after (level.restate reports)).Restates level (plain.after reports) := by
  refine ⟨restates.result, restates.errors, ?_⟩
  simp only [Completion.after, restates.reports, ReportLevel.restate_append]

theorem settle {completion plain : Completion Value} (restates : completion.Restates level plain)
    (required : Bool) : (completion.settle required).Restates level (plain.settle required) := by
  cases required with
  | true =>
      rw [settle_true, settle_true]
      exact restates
  | false =>
      rw [settle_false, settle_false]
      exact ⟨by rw [restates.result], restates.errors, restates.reports⟩

end Completion.Restates

namespace FieldPlace

variable {place : FieldPlace} {required : Bool} {level : ReportLevel}
  {object plain : Value → Completion Value}

private theorem restates_whenPresent (each : ∀ found, (object found).Restates level (plain found))
    (value : Value) :
    (place.whenPresent required value object).Restates level
      (place.whenPresent required value plain) := by
  simp only [whenPresent]
  split
  · exact .still (by cases required <;> rfl)
  · exact .still (by cases required <;> rfl)
  · exact each _

private theorem restates_completeItems (each : ∀ value, (object value).Restates level (plain value))
    (start : Nat) (items : List Value) :
    (completeItems object start items).Restates level (completeItems plain start items) := by
  induction items generalizing start with
  | nil => exact .still rfl
  | cons item rest ih => exact (each item).under.andThen fun _ => (ih (start + 1)).map

/-- Completion is the same at every level where the making of objects is. -/
theorem restates_complete (each : ∀ value, (object value).Restates level (plain value))
    (shape : Shape) (value : Value) :
    (place.complete object shape value).Restates level (place.complete plain shape value) := by
  induction shape generalizing value with
  | scalar leaf required =>
      exact restates_whenPresent (fun found => .still (reports_completeScalar leaf found)) value
  | object id required =>
      refine restates_whenPresent (fun found => ?_) value
      cases found with
      | sequence items => exact .still (reports_fail _)
      | _ => exact (each _).settle required
  | list item required ih =>
      refine restates_whenPresent (fun found => ?_) value
      cases found with
      | sequence items => exact (restates_completeItems ih 0 items).map.settle required
      | _ => exact .still (reports_fail _)

end FieldPlace

private theorem ObjectField.restates_resolve {field : ObjectField} {level : ReportLevel}
    {place : FieldPlace} {object plain : Value → Completion Value}
    (each : ∀ value, (object value).Restates level (plain value)) (context : Context)
    (arguments : Record) :
    (field.resolve level context arguments place object).Restates level
      (field.resolve .debug context arguments place plain) := by
  simp only [resolve]
  rw [Source.evaluate_eq_restate _ level]
  apply Completion.Restates.after
  cases (field.resolution.source.evaluate .debug (context.withArguments arguments)).result with
  | ok value => exact FieldPlace.restates_complete each field.resolution.shape value
  | error error => exact .still (FieldPlace.reports_fail _)

/-! ### Executions at another level -/

namespace Schema

variable {schema : Schema} {level : ReportLevel}

mutual

theorem restates_resolveField (object : ObjectType) (context : Context) :
    (planned : PlannedField) →
    (schema.resolveField level object context planned).Restates level
      (schema.resolveField .debug object context planned)
  | .typename key position => by
      rw [resolveField, resolveField]
      exact .still rfl
  | .leaf key position name arguments => by
      rw [resolveField, resolveField]
      cases object.fields.find? name with
      | none => exact .still (FieldPlace.reports_fail _)
      | some field => exact field.restates_resolve (fun _ => .still rfl) context arguments
  | .composite key position name arguments id fields => by
      rw [resolveField, resolveField]
      cases object.fields.find? name with
      | none => exact .still (FieldPlace.reports_fail _)
      | some field =>
          apply field.restates_resolve
          intro value
          cases schema.object? id with
          | none => exact .still rfl
          | some inner => exact (restates_resolveFields inner (context.child value) fields).map

theorem restates_resolveFields (object : ObjectType) (context : Context) :
    (fields : List PlannedField) →
    (schema.resolveFields level object context fields).Restates level
      (schema.resolveFields .debug object context fields)
  | [] => by
      rw [resolveFields, resolveFields]
      exact .still rfl
  | planned :: rest => by
      rw [resolveFields, resolveFields]
      exact (restates_resolveField object context planned).under.andThen fun value =>
        (restates_resolveFields object context rest).map

end

private theorem restates_execute (level : ReportLevel) (plan : Plan) (context : Context) :
    (schema.execute level plan context).Restates level (schema.execute .debug plan context) := by
  unfold execute
  cases schema.object? plan.object with
  | none => exact .still rfl
  | some object => exact (restates_resolveFields object context plan.fields).map.settle false

end Schema

namespace Engine

def atLevel (engine : Engine) (level : ReportLevel) : Engine :=
  { engine with settings := { engine.settings with level := level } }

private theorem prepare_atLevel (engine : Engine) (request : Request) (level : ReportLevel) :
    (engine.atLevel level).prepare request = engine.prepare request := rfl

/-- At any level an engine gives the same response, and makes the same reports at that level. -/
theorem execute_atLevel (engine : Engine) (request : Request) (level : ReportLevel) :
    ((engine.atLevel level).execute request).response =
        ((engine.atLevel .debug).execute request).response ∧
      ((engine.atLevel level).execute request).reports =
        level.restate ((engine.atLevel .debug).execute request).reports := by
  unfold execute
  rw [prepare_atLevel, prepare_atLevel]
  cases engine.prepare request with
  | error refusal => exact ⟨rfl, ReportLevel.restate_nil.symm⟩
  | ok plan =>
      obtain ⟨result, errors, reports⟩ :=
        @Schema.restates_execute engine.schema level plan (engine.rootContext request)
      refine ⟨?_, reports⟩
      show Response.mk (engine.schema.execute level plan (engine.rootContext request)).result
        ((engine.schema.execute level plan (engine.rootContext request)).errors.map
          FieldError.toResponse) engine.settings.absence = _
      rw [result, errors]
      rfl

/-- Without its debug nodes an expression has the same result, at any levels.  Wherever a debug
node is evaluated, one event follows those of its source: its value, or null where the source is
abandoned, and none where it fails.  At every level but off the reports carry the level and tell
of the debug nodes that are met, in the order in which their sources end.  An engine gives one
response at all levels, and tells the same. -/
theorem debugNodes_transparent :
    (∀ (expression : Expression) (context : Context),
      (∀ label source, ¬ (Expression.debug label source).IsPartOf expression.withoutDebug) ∧
        (∀ level other : ReportLevel, (expression.evaluate level context).result =
          (expression.withoutDebug.evaluate other context).result) ∧
        (∀ (label : String) (elements : List Value),
          ((Expression.debug label expression).run context elements).events =
            (expression.run context elements).events ++
              ((expression.run context elements).outcome.event? label).toList) ∧
        ∀ level : ReportLevel, (expression.evaluate level context).reports.map Report.told =
          if level = .off then []
          else ((expression.inspections context []).filterMap (Inspection.event? context)).map
            fun event => (level, event)) ∧
      ∀ (engine : Engine) (request : Request),
        ∃ events : List (String × String), ∀ level : ReportLevel,
        ((engine.atLevel level).execute request).response = (engine.execute request).response ∧
          ((engine.atLevel level).execute request).reports.map Report.told =
            if level = .off then [] else events.map fun event => (level, event) := by
  constructor
  · intro expression context
    exact ⟨fun _ _ => Expression.not_isPartOf_withoutDebug expression,
      expression.result_evaluate_withoutDebug context,
      fun label _ => Evaluation.events_sighted label _,
      expression.told_reports_evaluate context⟩
  · intro engine request
    have own : (engine.execute request).response =
        ((engine.atLevel .debug).execute request).response :=
      (execute_atLevel engine request engine.settings.level).1
    refine ⟨((engine.atLevel .debug).execute request).reports.map fun report =>
      (report.label, report.text), fun level => ⟨?_, ?_⟩⟩
    · rw [(execute_atLevel engine request level).1, own]
    · rw [(execute_atLevel engine request level).2]
      exact ReportLevel.told_restate _

/-- A sum over an item that is there, one that is absent, and one that is no number and keeps
the last from being reached. -/
theorem debugNodes_transparent_ofSums :
    let transform : Expression := .debug "sum" (.binary .add
      (.debug "item" (.flatten (.read ⟨.element 0, [], .any⟩))) (.constant (.int 1)))
    let expression : Expression :=
      .map (.debug "items" (.read ⟨.current, [], .sequence .any⟩)) transform
    let context := Context.root (.sequence [.int 1, .absent, .bool true, .int 2]) []
    (expression.evaluate .info context).result = .error (.operandMismatch .add .bool .int) ∧
      (expression.withoutDebug.evaluate .off context).result =
        .error (.operandMismatch .add .bool .int) ∧
      (expression.evaluate .off context).reports.map Report.told = [] ∧
      (expression.evaluate .info context).reports.map Report.told =
        [(.info, "items", "[1,null,true,2]"), (.info, "item", "1"), (.info, "sum", "2"),
          (.info, "item", "null"), (.info, "sum", "null"), (.info, "item", "true")] := by
  intro transform expression context
  have failure : (expression.evaluate .info context).result =
      .error (.operandMismatch .add .bool .int) := rfl
  have met : (expression.inspections context []).filterMap (Inspection.event? context) =
      [("items", "[1,null,true,2]"), ("item", "1"), ("sum", "2"), ("item", "null"),
        ("sum", "null"), ("item", "true")] := by
    decide +kernel
  obtain ⟨ofExpressions, _⟩ := debugNodes_transparent
  obtain ⟨_, same, _, told⟩ := ofExpressions expression context
  have toldAloud := told .info
  rw [met] at toldAloud
  exact ⟨failure, (same .info .off).symm.trans failure, told .off, toldAloud⟩

end Engine

end StagedResolver
