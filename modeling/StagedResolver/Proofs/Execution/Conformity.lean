/-
Response data conforms to the declared types.

What stands at a position of a response is content of the position's shape, or
nothing where nothing is required.  Completion keeps to that at every position by
itself, whether a null comes from a value or from further below.
-/
import StagedResolver.Execution.Basic
import StagedResolver.Proofs.Plan.Fit
import StagedResolver.Proofs.Value.Layers

namespace StagedResolver

/-- Whether a value may stand at a position: as content, or as nothing where nothing
is required. -/
def Value.Stands (required : Bool) (content : Value → Prop) : Value → Prop
  | .null => required = false
  | .absent => required = false
  | found => content found

private theorem Value.stands_of_content {value : Value} {content : Value → Prop} (required : Bool)
    (noNull : value.kind ≠ .null) (noLayer : value.kind ≠ .optional)
    (isContent : content value) : value.Stands required content := by
  cases value with
  | null => exact absurd rfl noNull
  | absent => exact absurd rfl noLayer
  | _ => exact isContent

def Scalar.Shows : Scalar → Value → Prop
  | .int, value => value.kind = .int
  | .float, value => value.kind = .float
  | .string, value => value.kind = .string
  | .boolean, value => value.kind = .bool
  | .id, value => value.kind = .string
  | .json, value => value.kind ≠ .optional

private theorem Scalar.shows_of_written {scalar : Scalar} {value shown : Value}
    (written : scalar.written? value = some shown) (noNull : value.kind ≠ .null)
    (noLayer : value.kind ≠ .optional) :
    scalar.Shows shown ∧ shown.kind ≠ .null ∧ shown.kind ≠ .optional := by
  cases scalar with
  | json =>
      cases written
      exact ⟨noLayer, noNull, noLayer⟩
  | _ => cases value <;> cases written <;> exact ⟨rfl, nofun, nofun⟩

def Shape.Conforms (content : Record → Prop) : Shape → Value → Prop
  | .scalar leaf required, value => value.Stands required leaf.Shows
  | .object _ required, value =>
      value.Stands required fun found => ∃ entries, found = .record entries ∧ content entries
  | .list item required, value =>
      value.Stands required fun found =>
        ∃ items, found = .sequence items ∧ ∀ element ∈ items, Conforms content item element

namespace PlannedField

mutual

/-- Whether a value conforms to a planned field of an object type. -/
def Conforms (schema : Schema) (object : ObjectType) : PlannedField → Value → Prop
  | .typename _ _, value => value = .string object.name
  | .leaf _ _ name _, value =>
      ∃ field, object.fields.find? name = some field ∧
        field.resolution.shape.Conforms (fun _ => False) value
  | .composite _ _ name _ id fields, value =>
      ∃ field inner, object.fields.find? name = some field ∧ schema.object? id = some inner ∧
        field.resolution.shape.Conforms (AllConform schema inner fields) value

/-- Whether entries are those of planned fields, key by key and in their order. -/
def AllConform (schema : Schema) (object : ObjectType) : List PlannedField → Record → Prop
  | [], entries => entries = []
  | planned :: rest, entries =>
      ∃ value others, entries = (planned.key, value) :: others ∧
        Conforms schema object planned value ∧ AllConform schema object rest others

end

theorem AllConform.keys {schema : Schema} {object : ObjectType} {fields : List PlannedField}
    {entries : Record} (conform : AllConform schema object fields entries) :
    Entries.keys entries = fields.map key := by
  induction fields generalizing entries with
  | nil =>
      rw [AllConform] at conform
      rw [conform]
      rfl
  | cons planned rest ih =>
      rw [AllConform] at conform
      obtain ⟨value, others, rfl, _, othersConform⟩ := conform
      have otherKeys := ih othersConform
      simp only [Entries.keys, List.map_cons] at otherKeys ⊢
      rw [otherKeys]

end PlannedField

/-! ### Results of completions -/

def Completion.Gives {α : Type} (completion : Completion α) (holds : α → Prop) : Prop :=
  ∀ result, completion.result = some result → holds result

namespace Completion

variable {α β : Type} {holds : α → Prop} {completion : Completion α}

private theorem gives_ok {result : α} (resultHolds : holds result) : (ok result).Gives holds := by
  rintro _ ⟨⟩
  exact resultHolds

private theorem gives_rise (place : FieldPlace) (fault : FieldFault) :
    (rise place fault : Completion α).Gives holds := nofun

theorem Gives.andThen {other : β → Prop} {next : α → Completion β}
    (gives : completion.Gives holds)
    (nextGives : ∀ result, holds result → (next result).Gives other) :
    (completion.andThen next).Gives other := by
  intro result resultIs
  cases found : completion.result with
  | none =>
      simp only [Completion.andThen, found] at resultIs
      cases resultIs
  | some first =>
      simp only [Completion.andThen, found] at resultIs
      exact nextGives first (gives first found) result resultIs

theorem Gives.map {other : β → Prop} {change : α → β} (gives : completion.Gives holds)
    (implies : ∀ result, holds result → other (change result)) :
    (completion.map change).Gives other := by
  intro result resultIs
  obtain ⟨before, found, rfl⟩ := Option.map_eq_some_iff.mp resultIs
  exact implies before (gives before found)

/-- A null that goes up stops only where nothing is required. -/
theorem Gives.settle {completion : Completion Value} {required : Bool}
    {content : Value → Prop} (gives : completion.Gives (Value.Stands required content)) :
    (completion.settle required).Gives (Value.Stands required content) := by
  cases required with
  | true =>
      rw [settle_true]
      exact gives
  | false =>
      intro result resultIs
      rw [settle_false] at resultIs
      cases found : completion.result with
      | some first =>
          rw [found] at resultIs
          cases resultIs
          exact gives first found
      | none =>
          rw [found] at resultIs
          cases resultIs
          exact rfl

end Completion

namespace FieldPlace

variable {place : FieldPlace} {required : Bool} {content : Value → Prop}

private theorem gives_fail (fault : FieldFault) :
    (place.fail required fault).Gives (Value.Stands required content) :=
  Completion.Gives.settle (Completion.gives_rise place fault)

private theorem gives_whenPresent {value : Value} {next : Value → Completion Value}
    (nextGives : ∀ found, found.kind ≠ .null → found.kind ≠ .optional →
      (next found).Gives (Value.Stands required content)) :
    (place.whenPresent required value next).Gives (Value.Stands required content) := by
  have noLayer := @Value.kind_stripped_ne_optional value
  simp only [whenPresent]
  generalize value.stripped = found at noLayer ⊢
  cases found with
  | null =>
      cases required with
      | true => exact Completion.gives_rise place _
      | false => exact Completion.gives_ok rfl
  | absent =>
      cases required with
      | true => exact Completion.gives_rise place _
      | false => exact Completion.gives_ok rfl
  | present inner => exact absurd rfl (noLayer nofun)
  | _ => exact nextGives _ nofun nofun

private theorem gives_completeScalar {scalar : Scalar} {value : Value} (noNull : value.kind ≠ .null)
    (noLayer : value.kind ≠ .optional) :
    (place.completeScalar scalar required value).Gives (Value.Stands required scalar.Shows) := by
  simp only [completeScalar]
  cases written : scalar.written? value with
  | none => exact gives_fail _
  | some shown =>
      obtain ⟨shows, shownNoNull, shownNoLayer⟩ :=
        Scalar.shows_of_written written noNull noLayer
      exact Completion.gives_ok
        (Value.stands_of_content required shownNoNull shownNoLayer shows)

private theorem gives_completeObject {object : Value → Completion Value}
    {entriesHold : Record → Prop}
    (objectGives : ∀ found, (object found).Gives fun result =>
      ∃ entries, result = .record entries ∧ entriesHold entries) (value : Value) :
    (place.completeObject object required value).Gives
      (Value.Stands required fun result =>
        ∃ entries, result = .record entries ∧ entriesHold entries) := by
  have settled (found : Value) :
      ((object found).settle required).Gives
        (Value.Stands required fun result =>
          ∃ entries, result = .record entries ∧ entriesHold entries) := by
    apply Completion.Gives.settle
    intro result resultIs
    obtain ⟨entries, rfl, hold⟩ := objectGives found result resultIs
    exact ⟨entries, rfl, hold⟩
  cases value with
  | sequence items => exact gives_fail _
  | _ => exact settled _

private theorem gives_completeItems {complete : Value → Completion Value} {holds : Value → Prop}
    (completeGives : ∀ value, (complete value).Gives holds) (index : Nat)
    (items : List Value) :
    (completeItems complete index items).Gives fun results =>
      ∀ element ∈ results, holds element := by
  induction items generalizing index with
  | nil => exact Completion.gives_ok (List.forall_mem_nil _)
  | cons item rest ih =>
      have first : ((complete item).under (.index index)).Gives holds := completeGives item
      refine first.andThen fun result resultHolds => ?_
      refine (ih (index + 1)).map fun others othersHold => ?_
      exact List.forall_mem_cons.mpr ⟨resultHolds, othersHold⟩

/-- Completion gives a value that conforms to the shape, when objects are completed
to records with conforming entries. -/
theorem gives_complete {object : Value → Completion Value} {entriesHold : Record → Prop}
    {shape : Shape}
    (objectGives : shape.object? ≠ none → ∀ found, (object found).Gives fun result =>
      ∃ entries, result = .record entries ∧ entriesHold entries) (value : Value) :
    (place.complete object shape value).Gives (shape.Conforms entriesHold) := by
  induction shape generalizing value with
  | scalar leaf required =>
      apply gives_whenPresent
      intro found noNull noLayer
      exact gives_completeScalar noNull noLayer
  | object id required =>
      apply gives_whenPresent
      intro found _ _
      exact gives_completeObject (objectGives nofun) found
  | list item required ih =>
      apply gives_whenPresent
      intro found _ _
      cases found with
      | sequence items =>
          have conforming := gives_completeItems (ih objectGives) 0 items
          refine Completion.Gives.settle (conforming.map fun results conform => ?_)
          exact ⟨results, rfl, conform⟩
      | _ => exact gives_fail _

end FieldPlace

private theorem ObjectField.gives_resolve {field : ObjectField} {place : FieldPlace}
    {object : Value → Completion Value} {entriesHold : Record → Prop}
    (objectGives : field.resolution.shape.object? ≠ none → ∀ found,
      (object found).Gives fun result =>
        ∃ entries, result = .record entries ∧ entriesHold entries)
    (level : ReportLevel) (context : Context) (arguments : Record) :
    (field.resolve level context arguments place object).Gives
      (field.resolution.shape.Conforms entriesHold) := by
  simp only [ObjectField.resolve]
  cases (field.resolution.source.evaluate level (context.withArguments arguments)).result with
  | ok value => exact FieldPlace.gives_complete objectGives value
  | error error =>
      cases shape : field.resolution.shape with
      | scalar leaf required => exact FieldPlace.gives_fail _
      | object id required => exact FieldPlace.gives_fail _
      | list item required => exact FieldPlace.gives_fail _

namespace Schema

variable {schema : Schema} {object : ObjectType}

private theorem gives_resolveFields {level : ReportLevel} {context : Context}
    {fields : List PlannedField}
    (each : ∀ planned ∈ fields, (schema.resolveField level object context planned).Gives
      (planned.Conforms schema object)) :
    (schema.resolveFields level object context fields).Gives
      (PlannedField.AllConform schema object fields) := by
  induction fields with
  | nil =>
      rw [resolveFields]
      exact Completion.gives_ok (by rw [PlannedField.AllConform])
  | cons planned rest ih =>
      obtain ⟨firstGives, restGive⟩ := List.forall_mem_cons.mp each
      rw [resolveFields]
      have first : ((schema.resolveField level object context planned).under
          (.key planned.key)).Gives (planned.Conforms schema object) := firstGives
      refine first.andThen fun value conforms => ?_
      refine (ih restGive).map fun others othersConform => ?_
      rw [PlannedField.AllConform]
      exact ⟨value, others, rfl, conforms, othersConform⟩

private theorem gives_resolveField {planned : PlannedField} (fits : planned.Fits schema object)
    (level : ReportLevel) (context : Context) :
    (schema.resolveField level object context planned).Gives
      (planned.Conforms schema object) := by
  -- Along the derivation, not the plan: it says which type each object has.
  induction fits generalizing context with
  | typename key position =>
      rw [resolveField]
      exact Completion.gives_ok (by rw [PlannedField.Conforms])
  | leaf key position arguments found noObject =>
      rw [resolveField, found]
      intro result resultIs
      rw [PlannedField.Conforms]
      refine ⟨_, found, ?_⟩
      exact ObjectField.gives_resolve (fun ofObject => absurd noObject ofObject) level context
        arguments result resultIs
  | @composite object inner name field id fields key position arguments found ofObject
      innerFound distinct inside ih =>
      rw [resolveField, found]
      simp only [innerFound]
      intro result resultIs
      rw [PlannedField.Conforms]
      refine ⟨field, inner, found, innerFound, ?_⟩
      have objectGives (held : Value) :
          ((resolveFields schema level inner (context.child held) fields).map
            Value.record).Gives fun result => ∃ entries, result = .record entries ∧
              PlannedField.AllConform schema inner fields entries := by
        have entriesConform := gives_resolveFields fun planned member =>
          ih planned member (context.child held)
        exact entriesConform.map fun entries conform => ⟨entries, rfl, conform⟩
      exact ObjectField.gives_resolve (fun _ => objectGives) level context arguments
        result resultIs

/-- The data of a plan is null, or a record with the plan's keys in their order whose
values conform to the fields. -/
theorem execute_conforms {scope : PlanScope} {allowance : Nat} {id : ObjectIndex}
    {lists : List (List Selection)} {plan : Plan}
    (planned : scope.planSelections allowance id lists = .ok plan) (level : ReportLevel)
    (context : Context) :
    ∃ data, (scope.schema.execute level plan context).result = some data ∧
      (data ≠ .null → ∃ object entries, scope.schema.object? plan.object = some object ∧
        data = .record entries ∧ Entries.keys entries = plan.fields.map PlannedField.key ∧
          PlannedField.AllConform scope.schema object plan.fields entries) := by
  obtain ⟨_, object, fits⟩ := scope.planSelections_fits allowance id lists plan planned
  have gives := gives_resolveFields fun planned member =>
    gives_resolveField (fits.fields planned member) level context
  simp only [execute, fits.found]
  cases resolved : (scope.schema.resolveFields level object context plan.fields).result with
  | none =>
      refine ⟨.null, ?_, fun noNull => absurd rfl noNull⟩
      simp only [Completion.settle, Completion.map, resolved, Option.map_none]
      rfl
  | some entries =>
      refine ⟨.record entries, ?_, fun _ => ⟨object, entries, rfl, rfl, ?_⟩⟩
      · simp only [Completion.settle, Completion.map, resolved, Option.map_some]
      · have conform := gives entries resolved
        exact ⟨conform.keys, conform⟩

theorem execute_conforms_ofHeroes :
    PlanScope.ofHeroes.planSelections 4 0 [Selection.ofHeroes] = .ok .ofHeroes ∧
      (∃ data, (Schema.ofHeroes.execute .off .ofHeroes .ofHeroes).result = some data ∧
        (data ≠ .null → ∃ object entries,
          Schema.ofHeroes.object? Plan.ofHeroes.object = some object ∧
            data = .record entries ∧
              Entries.keys entries = Plan.ofHeroes.fields.map PlannedField.key ∧
                PlannedField.AllConform .ofHeroes object Plan.ofHeroes.fields entries)) ∧
      (Schema.ofHeroes.execute .off .ofHeroes .ofHeroes).result =
        some (.record [("heroes", .sequence
          [.record [("__typename", .string "Hero"), ("name", .string "first")], .null,
            .null])]) :=
  ⟨rfl, @execute_conforms .ofHeroes 4 0 [Selection.ofHeroes] .ofHeroes rfl .off .ofHeroes, rfl⟩

end Schema

end StagedResolver
