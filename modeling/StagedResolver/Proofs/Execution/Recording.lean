/-
Executions, recorded.

A recorded execution goes on as the execution does and keeps a note of every source that it
evaluates: for which planned field, where in the response, and in which context.  It ends
as the execution ends, and its notes account for all that is reported meanwhile.
-/
import StagedResolver.Engine.Basic

namespace StagedResolver

/-- What a planned field asks of an object: a field by its name, with arguments.  The name
of the object's type is nothing that is asked. -/
def PlannedField.asked? : PlannedField → Option (String × Record)
  | .typename _ _ => none
  | .leaf _ _ name arguments => some (name, arguments)
  | .composite _ _ name arguments _ _ => some (name, arguments)

/-- The evaluation of the source of a field.  The path is that of its value, from where it
is seen. -/
structure Visit where
  path : List PathStep
  planned : PlannedField
  field : ObjectField
  context : Context

namespace Visit

def evaluated (level : ReportLevel) (visit : Visit) : Evaluated :=
  visit.field.resolution.source.evaluate level visit.context

def under (above : List PathStep) (visit : Visit) : Visit :=
  { visit with path := above ++ visit.path }

theorem under_under (upper lower : List PathStep) (visit : Visit) :
    (visit.under lower).under upper = visit.under (upper ++ lower) := by
  rw [under, under, under, List.append_assoc]

end Visit

/-- A completion, and the evaluations that it took. -/
structure Recorded (α : Type) where
  completion : Completion α
  visits : List Visit

namespace Recorded

variable {α β : Type}

def still (completion : Completion α) : Recorded α := ⟨completion, []⟩

def andThen (first : Recorded α) (next : α → Recorded β) : Recorded β :=
  ⟨first.completion.andThen fun found => (next found).completion,
    first.visits ++
      match first.completion.result with
      | some found => (next found).visits
      | none => []⟩

def map (change : α → β) (recorded : Recorded α) : Recorded β :=
  ⟨recorded.completion.map change, recorded.visits⟩

def under (segment : PathStep) (recorded : Recorded α) : Recorded α :=
  ⟨recorded.completion.under segment, recorded.visits.map (Visit.under [segment])⟩

def settle (required : Bool) (recorded : Recorded Value) : Recorded Value :=
  ⟨recorded.completion.settle required, recorded.visits⟩

def visiting (level : ReportLevel) (visit : Visit)
    (next : Except EvaluationError Value → Recorded Value) : Recorded Value :=
  let evaluated := visit.evaluated level
  let found := next evaluated.result
  ⟨found.completion.after evaluated.reports, visit :: found.visits⟩

end Recorded

namespace FieldPlace

def recordPresent (place : FieldPlace) (required : Bool) (value : Value)
    (next : Value → Recorded Value) : Recorded Value :=
  match value.stripped with
  | .null => .still (if required then .rise place .nothingFound else .ok .null)
  | .absent => .still (if required then .rise place .nothingFound else .ok .absent)
  | found => next found

def recordObject (place : FieldPlace) (object : Value → Recorded Value)
    (required : Bool) (value : Value) : Recorded Value :=
  match value with
  | .sequence _ => .still (place.fail required .listForObject)
  | other => (object other).settle required

def recordItems (complete : Value → Recorded Value) (index : Nat) :
    List Value → Recorded (List Value)
  | [] => .still (.ok [])
  | item :: rest =>
      ((complete item).under (.index index)).andThen fun first =>
        (recordItems complete (index + 1) rest).map fun others => first :: others

def record (place : FieldPlace) (object : Value → Recorded Value) :
    Shape → Value → Recorded Value
  | .scalar leaf required, value =>
      place.recordPresent required value fun found =>
        .still (place.completeScalar leaf required found)
  | .object _ required, value =>
      place.recordPresent required value (place.recordObject object required)
  | .list item required, value =>
      place.recordPresent required value fun found =>
        match found with
        | .sequence items =>
            ((recordItems (record place object item) 0 items).map Value.sequence).settle required
        | other => .still (place.fail required (.notList other.kind))

end FieldPlace

def ObjectField.record (field : ObjectField) (level : ReportLevel) (planned : PlannedField)
    (context : Context) (arguments : Record) (place : FieldPlace)
    (object : Value → Recorded Value) : Recorded Value :=
  Recorded.visiting level ⟨[], planned, field, context.withArguments arguments⟩ fun result =>
    match result with
    | .ok value => place.record object field.resolution.shape value
    | .error error => .still (place.fail field.resolution.shape.required (.unresolved error))

namespace Schema

mutual

def recordField (schema : Schema) (level : ReportLevel) (object : ObjectType)
    (context : Context) : PlannedField → Recorded Value
  | .typename _ _ => .still (.ok (.string object.name))
  | .leaf key position name arguments =>
      let place : FieldPlace := ⟨object.name, name, position⟩
      match object.fields.find? name with
      | none => .still (place.fail false .broken)
      | some field =>
          field.record level (.leaf key position name arguments) context arguments place
            fun _ => .still (.rise place .broken)
  | .composite key position name arguments id fields =>
      let place : FieldPlace := ⟨object.name, name, position⟩
      match object.fields.find? name with
      | none => .still (place.fail false .broken)
      | some field =>
          field.record level (.composite key position name arguments id fields) context
            arguments place fun value =>
              match schema.object? id with
              | none => .still (.rise place .broken)
              | some inner =>
                  (recordFields schema level inner (context.child value) fields).map
                    Value.record

def recordFields (schema : Schema) (level : ReportLevel) (object : ObjectType)
    (context : Context) : List PlannedField → Recorded Record
  | [] => .still (.ok [])
  | field :: rest =>
      ((recordField schema level object context field).under
        (.key field.key)).andThen fun value =>
          (recordFields schema level object context rest).map fun others =>
            (field.key, value) :: others

end

def record (schema : Schema) (level : ReportLevel) (plan : Plan)
    (context : Context) : Recorded Value :=
  match schema.object? plan.object with
  | none => .still ⟨some .null, [], []⟩
  | some object =>
      ((schema.recordFields level object context plan.fields).map Value.record).settle false

end Schema

def Engine.record (engine : Engine) (request : Request) : Answer × List Visit :=
  match engine.prepare request with
  | .error refusal => (⟨.refusal refusal.errors, []⟩, [])
  | .ok plan =>
      let recorded :=
        engine.schema.record engine.settings.level plan (engine.rootContext request)
      (⟨⟨recorded.completion.result, recorded.completion.errors.map FieldError.toResponse,
          engine.settings.absence⟩, recorded.completion.reports⟩, recorded.visits)

/-! ### What is recorded is what happens -/

private theorem Completion.reports_settle (completion : Completion Value) (required : Bool) :
    (completion.settle required).reports = completion.reports := by
  cases required with
  | true => rw [settle_true]
  | false => rw [settle_false]

def reportsOf (level : ReportLevel) (visits : List Visit) : List Report :=
  visits.flatMap fun visit => (visit.evaluated level).reports

private theorem reportsOf_append (level : ReportLevel) (first second : List Visit) :
    reportsOf level (first ++ second) = reportsOf level first ++ reportsOf level second :=
  List.flatMap_append

/-- Whether what is recorded is a completion, with the evaluations that make its reports. -/
structure Recorded.Records {α : Type} (level : ReportLevel) (recorded : Recorded α)
    (completion : Completion α) : Prop where
  same : recorded.completion = completion
  reports : completion.reports = reportsOf level recorded.visits

namespace Recorded.Records

variable {α β : Type} {level : ReportLevel} {recorded : Recorded α} {completion : Completion α}

theorem still (silent : completion.reports = []) :
    (Recorded.still completion).Records level completion :=
  ⟨rfl, silent⟩

theorem andThen {next : α → Recorded β} {other : α → Completion β}
    (records : recorded.Records level completion)
    (each : ∀ found, (next found).Records level (other found)) :
    (recorded.andThen next).Records level (completion.andThen other) := by
  obtain ⟨rfl, reports⟩ := records
  have sameNext : (fun found => (next found).completion) = other :=
    funext fun found => (each found).same
  refine ⟨congrArg recorded.completion.andThen sameNext, ?_⟩
  simp only [Recorded.andThen, Completion.andThen]
  cases recorded.completion.result with
  | none => simp only [reports, List.append_nil]
  | some found => simp only [reportsOf_append, reports, (each found).reports]

theorem map {change : α → β} (records : recorded.Records level completion) :
    (recorded.map change).Records level (completion.map change) :=
  ⟨congrArg (Completion.map change) records.same, records.reports⟩

theorem under {segment : PathStep} (records : recorded.Records level completion) :
    (recorded.under segment).Records level (completion.under segment) := by
  refine ⟨congrArg (Completion.under segment) records.same, ?_⟩
  have sameReports : reportsOf level (recorded.visits.map (Visit.under [segment])) =
      reportsOf level recorded.visits := List.flatMap_map ..
  exact records.reports.trans sameReports.symm

theorem settle {recorded : Recorded Value} {completion : Completion Value}
    (records : recorded.Records level completion) (required : Bool) :
    (recorded.settle required).Records level (completion.settle required) := by
  refine ⟨congrArg (Completion.settle required) records.same, ?_⟩
  rw [Completion.reports_settle]
  exact records.reports

private theorem visiting {visit : Visit} {next : Except EvaluationError Value → Recorded Value}
    {completion : Completion Value}
    (records : (next (visit.evaluated level).result).Records level completion) :
    (Recorded.visiting level visit next).Records level
      (completion.after (visit.evaluated level).reports) := by
  refine ⟨congrArg (Completion.after _) records.same, ?_⟩
  exact congrArg (List.append _) records.reports

end Recorded.Records

namespace FieldPlace

variable {level : ReportLevel} {place : FieldPlace} {required : Bool}
  {object : Value → Recorded Value} {plain : Value → Completion Value}

theorem reports_fail (fault : FieldFault) : (place.fail required fault).reports = [] :=
  Completion.reports_settle _ required

private theorem records_present {next : Value → Recorded Value} {other : Value → Completion Value}
    (each : ∀ found, (next found).Records level (other found)) (value : Value) :
    (place.recordPresent required value next).Records level
      (place.whenPresent required value other) := by
  unfold recordPresent whenPresent
  cases value.stripped with
  | null | absent =>
      apply Recorded.Records.still
      cases required with
      | true => rfl
      | false => rfl
  | _ => exact each _

theorem reports_completeScalar (leaf : Scalar) (value : Value) :
    (place.completeScalar leaf required value).reports = [] := by
  unfold completeScalar
  cases leaf.written? value with
  | none => exact reports_fail _
  | some written => rfl

private theorem records_object (each : ∀ value, (object value).Records level (plain value))
    (value : Value) :
    (place.recordObject object required value).Records level
      (place.completeObject plain required value) := by
  unfold recordObject completeObject
  cases value with
  | sequence items => exact .still (reports_fail _)
  | _ => exact (each _).settle required

private theorem records_items {complete : Value → Recorded Value}
    (each : ∀ value, (complete value).Records level (plain value)) (index : Nat)
    (items : List Value) :
    (recordItems complete index items).Records level (completeItems plain index items) := by
  induction items generalizing index with
  | nil => exact .still rfl
  | cons item rest ih =>
      exact (each item).under.andThen fun first => (ih (index + 1)).map

private theorem records (each : ∀ value, (object value).Records level (plain value)) (shape : Shape)
    (value : Value) :
    (place.record object shape value).Records level (place.complete plain shape value) := by
  induction shape generalizing value with
  | scalar leaf required =>
      exact records_present (fun found => .still (reports_completeScalar leaf found)) value
  | object id required => exact records_present (records_object each) value
  | list item required ih =>
      apply records_present
      intro found
      cases found with
      | sequence items => exact (records_items ih 0 items).map.settle required
      | _ => exact .still (reports_fail _)

end FieldPlace

private theorem ObjectField.records {field : ObjectField} {level : ReportLevel} {place : FieldPlace}
    {object : Value → Recorded Value} {plain : Value → Completion Value}
    (each : ∀ value, (object value).Records level (plain value)) (planned : PlannedField)
    (context : Context) (arguments : Record) :
    (field.record level planned context arguments place object).Records level
      (field.resolve level context arguments place plain) := by
  apply Recorded.Records.visiting
  unfold Visit.evaluated
  cases (field.resolution.source.evaluate level (context.withArguments arguments)).result with
  | ok value => exact FieldPlace.records each field.resolution.shape value
  | error error => exact .still (FieldPlace.reports_fail _)

namespace Schema

variable {schema : Schema} {level : ReportLevel}

mutual

theorem records_field (object : ObjectType) (context : Context) : (planned : PlannedField) →
    (schema.recordField level object context planned).Records level
      (schema.resolveField level object context planned)
  | .typename key position => by
      rw [recordField, resolveField]
      exact .still rfl
  | .leaf key position name arguments => by
      rw [recordField, resolveField]
      cases object.fields.find? name with
      | none => exact .still (FieldPlace.reports_fail _)
      | some field => exact ObjectField.records (fun _ => .still rfl) _ context arguments
  | .composite key position name arguments id fields => by
      rw [recordField, resolveField]
      cases object.fields.find? name with
      | none => exact .still (FieldPlace.reports_fail _)
      | some field =>
          apply ObjectField.records
          intro value
          cases schema.object? id with
          | none => exact .still rfl
          | some inner => exact (records_fields inner (context.child value) fields).map

theorem records_fields (object : ObjectType) (context : Context) :
    (fields : List PlannedField) →
      (schema.recordFields level object context fields).Records level
        (schema.resolveFields level object context fields)
  | [] => by
      rw [recordFields, resolveFields]
      exact .still rfl
  | planned :: rest => by
      rw [recordFields, resolveFields]
      exact (records_field object context planned).under.andThen fun value =>
        (records_fields object context rest).map

end

/-- A recorded execution is the execution. -/
theorem records (level : ReportLevel) (plan : Plan) (context : Context) :
    (schema.record level plan context).Records level (schema.execute level plan context) := by
  unfold record execute
  cases schema.object? plan.object with
  | none => exact .still rfl
  | some object => exact (records_fields object context plan.fields).map.settle false

end Schema

/-- A recorded answer is the answer, and its reports are those of the evaluations. -/
theorem Engine.record_eq (engine : Engine) (request : Request) :
    (engine.record request).1 = engine.execute request ∧
      (engine.execute request).reports =
        reportsOf engine.settings.level (engine.record request).2 := by
  unfold record execute
  cases engine.prepare request with
  | error refusal => exact ⟨rfl, rfl⟩
  | ok plan =>
      obtain ⟨same, reports⟩ := @Schema.records engine.schema engine.settings.level plan
        (engine.rootContext request)
      constructor
      · simp only [same]
      · exact reports

end StagedResolver
