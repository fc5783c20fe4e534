/-
Every error of an execution is accounted for.

A site is a position of a response that a value is completed at.  Whether it fails,
and why, is seen from the site alone, and sites lead to the sites below them.  The
errors of an execution are faults of sites, on the paths that lead there, whatever
becomes of the values around them.
-/
import StagedResolver.Execution.Basic
import StagedResolver.Proofs.Execution.Accounting
import StagedResolver.Proofs.Plan.Fit
import StagedResolver.Proofs.Value.Layers

namespace StagedResolver

/-- A position that a value is completed at. -/
structure Site where
  place : FieldPlace
  context : Context
  fields : List PlannedField
  shape : Shape
  found : Except EvaluationError Value

/-- Why a value without present layers, neither null nor absent, is not of a shape. -/
def Shape.fault? : Shape → Value → Option FieldFault
  | .scalar leaf _, value =>
      if leaf.takes value then none else some (.notOfScalar value.kind leaf)
  | .object _ _, value => if value.kind = .sequence then some .listForObject else none
  | .list _ _, value => if value.kind = .sequence then none else some (.notList value.kind)

def Site.fault? (site : Site) : Option FieldFault :=
  match site.found with
  | .error error => some (.unresolved error)
  | .ok value =>
      match value.stripped with
      | .null => if site.shape.required then some .nothingFound else none
      | .absent => if site.shape.required then some .nothingFound else none
      | held => site.shape.fault? held

def ObjectField.site (field : ObjectField) (level : ReportLevel) (context : Context)
    (arguments : Record) (place : FieldPlace) (fields : List PlannedField) : Site :=
  ⟨place, context, fields, field.resolution.shape,
    (field.resolution.source.evaluate level (context.withArguments arguments)).result⟩

/-- The site of a planned field; the name of an object's type has none. -/
def PlannedField.site? (level : ReportLevel) (object : ObjectType) (context : Context) :
    PlannedField → Option Site
  | .typename _ _ => none
  | .leaf _ position name arguments =>
      (object.fields.find? name).map fun field =>
        field.site level context arguments ⟨object.name, name, position⟩ []
  | .composite _ position name arguments _ fields =>
      (object.fields.find? name).map fun field =>
        field.site level context arguments ⟨object.name, name, position⟩ fields

namespace Site

def holding (site : Site) (shape : Shape) (value : Value) : Site :=
  { site with shape := shape, found := .ok value }

/-- The paths from a site to the sites below it: by the indices of lists, and by the
keys of objects. -/
inductive Leads (schema : Schema) (level : ReportLevel) : Site → List PathStep → Site → Prop where
  | here (site : Site) : Leads schema level site [] site
  | item {site target : Site} {item : Shape} {required : Bool} {value element : Value}
      {items : List Value} {index : Nat} {path : List PathStep}
      (shapeIs : site.shape = .list item required) (foundIs : site.found = .ok value)
      (itemsAre : value.stripped = .sequence items) (atIndex : items[index]? = some element)
      (leads : Leads schema level (site.holding item element) path target) :
      Leads schema level site (.index index :: path) target
  | inner {site next target : Site} {id : ObjectIndex} {required : Bool} {value : Value}
      {object : ObjectType} {planned : PlannedField} {path : List PathStep}
      (shapeIs : site.shape = .object id required) (foundIs : site.found = .ok value)
      (something : value.stripped.isNothing = false)
      (noList : value.stripped.kind ≠ .sequence)
      (objectIs : schema.object? id = some object) (member : planned ∈ site.fields)
      (nextIs : planned.site? level object (site.context.child value.stripped) = some next)
      (leads : Leads schema level next path target) :
      Leads schema level site (.key planned.key :: path) target

/-- Whether an error is the fault of a site that its path leads to. -/
def Explains (schema : Schema) (level : ReportLevel) (site : Site) (error : FieldError) :
    Prop :=
  ∃ target, site.Leads schema level error.path target ∧
    target.fault? = some error.fault ∧ target.place = error.place

section Completion

variable {schema : Schema} {level : ReportLevel} {site : Site}

private theorem explains_here {fault : FieldFault} (isFault : site.fault? = some fault) :
    site.Explains schema level ⟨[], site.place, fault⟩ :=
  ⟨site, .here site, isFault, rfl⟩

private theorem accounts_fail {fault : FieldFault} (isFault : site.fault? = some fault)
    (required : Bool) :
    (site.place.fail required fault).AccountsFor (site.Explains schema level) :=
  (Completion.AccountsFor.rise (explains_here isFault)).settle required

theorem fault?_of_something (site : Site) {value : Value} (foundIs : site.found = .ok value)
    (something : value.stripped.isNothing = false) :
    site.fault? = site.shape.fault? value.stripped := by
  simp only [fault?, foundIs]
  generalize value.stripped = held at something ⊢
  cases held with
  | null => cases something
  | absent => cases something
  | _ => rfl

private theorem accounts_whenPresent {value : Value} {next : Value → Completion Value}
    (foundIs : site.found = .ok value)
    (nextAccounts : value.stripped.isNothing = false →
      (next value.stripped).AccountsFor (site.Explains schema level)) :
    (site.place.whenPresent site.shape.required value next).AccountsFor
      (site.Explains schema level) := by
  have noLayer := @Value.kind_stripped_ne_optional value
  have missing (nothing : value.stripped = .null ∨ value.stripped = .absent)
      (required : site.shape.required = true) :
      (Completion.rise site.place .nothingFound).AccountsFor
        (site.Explains schema level) := by
    apply Completion.AccountsFor.rise
    apply explains_here
    rcases nothing with isNull | isAbsent
    · simp only [fault?, foundIs, isNull, required, if_true]
    · simp only [fault?, foundIs, isAbsent, required, if_true]
  cases held : value.stripped with
  | null =>
      cases required : site.shape.required with
      | true =>
          simp only [FieldPlace.whenPresent, held, if_true]
          exact missing (.inl held) required
      | false =>
          simp only [FieldPlace.whenPresent, held]
          exact .ok .null
  | absent =>
      cases required : site.shape.required with
      | true =>
          simp only [FieldPlace.whenPresent, held, if_true]
          exact missing (.inr held) required
      | false =>
          simp only [FieldPlace.whenPresent, held]
          exact .ok .absent
  | present inner =>
      rw [held] at noLayer
      exact absurd rfl (noLayer nofun)
  | _ =>
      rw [held] at nextAccounts
      simp only [FieldPlace.whenPresent, held]
      exact nextAccounts rfl

end Completion

/-! ### Completion at a site -/

def itemAt (start : Nat) : PathStep → List Value → Option Value
  | .index index, items => if start ≤ index then items[index - start]? else none
  | .key _, _ => none

private theorem accounts_completeItems {complete : Value → Completion Value} {start : Nat}
    {items : List Value} {traced : FieldError → Prop}
    (each : ∀ index element, items[index]? = some element →
      (complete element).AccountsFor fun error => traced (error.under (.index (start + index)))) :
    (FieldPlace.completeItems complete start items).AccountsForParts (itemAt start)
      (fun segment => ∃ index, start ≤ index ∧ segment = .index index) traced := by
  induction items generalizing start with
  | nil => exact .ok []
  | cons item rest ih =>
      have restAccounts := @ih (start + 1) fun index element atIndex => by
        rw [Nat.add_right_comm]
        exact each (index + 1) element atIndex
      refine Completion.AccountsForParts.cons (each 0 item rfl) restAccounts ?_ ?_ ?_ ?_ ?_
      · rintro ⟨index, later, same⟩
        cases same
        omega
      · exact ⟨start, Nat.le_refl start, rfl⟩
      · rintro segment ⟨index, later, rfl⟩
        exact ⟨index, by omega, rfl⟩
      · intro value held
        simp only [itemAt, Nat.le_refl, if_true, Nat.sub_self, List.getElem?_cons_zero]
      · intro segment value held different
        cases segment with
        | key name => rfl
        | index index =>
            have notStart : index ≠ start := fun same => different (by rw [same])
            by_cases later : start + 1 ≤ index
            · have position : index - start = (index - (start + 1)) + 1 := by omega
              have notBefore : start ≤ index := by omega
              simp only [itemAt, later, notBefore, if_true, position,
                List.getElem?_cons_succ]
            · have before : ¬ start ≤ index := by omega
              simp only [itemAt, later, before, if_false]

section Shapes

variable {schema : Schema} {level : ReportLevel} {site : Site}
variable {object : Value → Completion Value}

private theorem accounts_completeScalar {leaf : Scalar} {required : Bool} {value : Value}
    (something : value.stripped.isNothing = false) :
    (site.place.completeScalar leaf required value.stripped).AccountsFor
      ((site.holding (.scalar leaf required) value).Explains schema level) := by
  have faultIs : (site.holding (.scalar leaf required) value).fault? =
      (Shape.scalar leaf required).fault? value.stripped :=
    fault?_of_something _ rfl something
  simp only [FieldPlace.completeScalar]
  cases written : leaf.written? value.stripped with
  | some shown => exact .ok shown
  | none =>
      have notTaken : leaf.takes value.stripped = false := by
        rw [Scalar.takes, written, Option.isSome_none]
      simp only [Shape.fault?, notTaken, Bool.false_eq_true, if_false] at faultIs
      exact accounts_fail faultIs required

private theorem accounts_completeObject {id : ObjectIndex} {required : Bool} {value : Value}
    (something : value.stripped.isNothing = false)
    (accounts : value.stripped.kind ≠ .sequence → (object value.stripped).AccountsFor
      ((site.holding (.object id required) value).Explains schema level)) :
    (site.place.completeObject object required value.stripped).AccountsFor
      ((site.holding (.object id required) value).Explains schema level) := by
  have faultIs := fault?_of_something (site.holding (.object id required) value) rfl
    something
  generalize value.stripped = held at faultIs accounts
  cases held with
  | sequence items => exact accounts_fail faultIs required
  | _ => exact (accounts nofun).settle required

private theorem accounts_completeList {complete : Value → Completion Value} {item : Shape}
    (required : Bool) {value : Value} {items : List Value}
    (itemsAre : value.stripped = .sequence items)
    (each : ∀ element, (complete element).AccountsFor
      ((site.holding item element).Explains schema level)) :
    ((FieldPlace.completeItems complete 0 items).map Value.sequence).AccountsFor
      ((site.holding (.list item required) value).Explains schema level) := by
  have parts := @accounts_completeItems complete 0 items
    ((site.holding (.list item required) value).Explains schema level)
    fun index element atIndex => (each element).mono fun error explained => by
      obtain ⟨target, leads, faultIs, placeIs⟩ := explained
      rw [Nat.zero_add]
      exact ⟨target, .item rfl rfl itemsAre atIndex leads, faultIs, placeIs⟩
  refine parts.wrap fun segment rest held element lookIs => ?_
  cases segment with
  | key name => cases lookIs
  | index index =>
      simp only [itemAt, Nat.zero_le, if_true, Nat.sub_zero] at lookIs
      simp only [Value.at?, lookIs, Option.bind_some]

/-- Completion accounts for the errors at a site, when objects are completed so that
theirs are accounted for. -/
theorem accounts_complete {shape : Shape}
    (objectAccounts : ∀ id required value, shape.object? = some id →
      value.stripped.isNothing = false → value.stripped.kind ≠ .sequence →
        (object value.stripped).AccountsFor
          ((site.holding (.object id required) value).Explains schema level))
    (value : Value) :
    (site.place.complete object shape value).AccountsFor
      ((site.holding shape value).Explains schema level) := by
  induction shape generalizing value with
  | scalar leaf required =>
      exact accounts_whenPresent rfl accounts_completeScalar
  | object id required =>
      refine accounts_whenPresent rfl fun something => ?_
      exact accounts_completeObject something
        (objectAccounts id required value rfl something)
  | list item required ih =>
      refine accounts_whenPresent rfl fun something => ?_
      have faultIs := fault?_of_something (site.holding (.list item required) value) rfl
        something
      have listAccounts (items : List Value) (itemsAre : value.stripped = .sequence items) :=
        (accounts_completeList required itemsAre (ih objectAccounts)).settle required
      generalize value.stripped = held at faultIs listAccounts
      cases held with
      | sequence items => exact listAccounts items rfl
      | _ => exact accounts_fail faultIs required

end Shapes

end Site

/-! ### Fields and objects -/

/-- Whether the path of an error starts with the key of a planned field, and leads on
from the field's site to one with the error's fault. -/
def PlannedField.Explains (schema : Schema) (level : ReportLevel) (object : ObjectType)
    (context : Context) (planned : PlannedField) (error : FieldError) : Prop :=
  ∃ site rest target, planned.site? level object context = some site ∧
    error.path = .key planned.key :: rest ∧ site.Leads schema level rest target ∧
      target.fault? = some error.fault ∧ target.place = error.place

private theorem ObjectField.accounts_resolve {schema : Schema} {field : ObjectField}
    {level : ReportLevel} {context : Context} {arguments : Record} {place : FieldPlace}
    {fields : List PlannedField} {object : Value → Completion Value}
    (objectAccounts : ∀ id required value, field.resolution.shape.object? = some id →
      value.stripped.isNothing = false → value.stripped.kind ≠ .sequence →
        (object value.stripped).AccountsFor
          (((field.site level context arguments place fields).holding (.object id required)
            value).Explains schema level)) :
    (field.resolve level context arguments place object).AccountsFor
      ((field.site level context arguments place fields).Explains schema level) := by
  cases found : (field.resolution.source.evaluate level
      (context.withArguments arguments)).result with
  | ok value =>
      have siteIs : field.site level context arguments place fields =
          (field.site level context arguments place fields).holding field.resolution.shape
            value := by
        rw [ObjectField.site, found]
        rfl
      simp only [ObjectField.resolve, found]
      rw [siteIs]
      exact (Site.accounts_complete objectAccounts value).after _
  | error error =>
      have isFault : (field.site level context arguments place fields).fault? =
          some (.unresolved error) := by
        simp only [ObjectField.site, Site.fault?, found]
      simp only [ObjectField.resolve, found]
      exact (Site.accounts_fail isFault _).after _

namespace Schema

variable {schema : Schema} {level : ReportLevel} {object : ObjectType} {context : Context}

def entryAt : PathStep → Record → Option Value
  | .key name, entries => entries.find? name
  | .index _, _ => none

private theorem accounts_resolveFields {fields : List PlannedField} {traced : FieldError → Prop}
    (distinct : (fields.map PlannedField.key).Nodup)
    (each : ∀ planned ∈ fields, (schema.resolveField level object context planned).AccountsFor
      fun error => traced (error.under (.key planned.key))) :
    (schema.resolveFields level object context fields).AccountsForParts entryAt
      (fun segment => ∃ planned ∈ fields, segment = .key planned.key) traced := by
  induction fields with
  | nil =>
      rw [resolveFields]
      exact .ok []
  | cons planned rest ih =>
      obtain ⟨fresh, restDistinct⟩ := List.nodup_cons.mp distinct
      obtain ⟨firstAccounts, restAccounts⟩ := List.forall_mem_cons.mp each
      rw [resolveFields]
      refine Completion.AccountsForParts.cons firstAccounts (ih restDistinct restAccounts)
        ?_ ?_ ?_ ?_ ?_
      · rintro ⟨other, member, same⟩
        exact fresh (List.mem_map.mpr ⟨other, member, (PathStep.key.inj same).symm⟩)
      · exact ⟨planned, List.mem_cons_self .., rfl⟩
      · rintro segment ⟨other, member, rfl⟩
        exact ⟨other, List.mem_cons_of_mem _ member, rfl⟩
      · intro value held
        simp only [entryAt, Entries.find?, if_true]
      · intro segment value held different
        cases segment with
        | index index => rfl
        | key name =>
            have otherKey : planned.key ≠ name := fun same => different (by rw [same])
            simp only [entryAt, Entries.find?, otherKey, if_false]

private theorem entryAt_below {segment : PathStep} {rest : List PathStep} {entries : Record}
    {value : Value} (lookIs : entryAt segment entries = some value) :
    (Value.record entries).at? (segment :: rest) = value.at? rest := by
  cases segment with
  | index index => cases lookIs
  | key name =>
      simp only [entryAt] at lookIs
      simp only [Value.at?, lookIs, Option.bind_some]

private theorem accounts_object {fields : List PlannedField}
    (distinct : (fields.map PlannedField.key).Nodup)
    (each : ∀ planned ∈ fields, (schema.resolveField level object context planned).AccountsFor
      fun error =>
        planned.Explains schema level object context (error.under (.key planned.key))) :
    ((schema.resolveFields level object context fields).map Value.record).AccountsFor
      fun error => ∃ planned ∈ fields, planned.Explains schema level object context error := by
  have parts := @accounts_resolveFields schema level object context fields
    (fun error => ∃ planned ∈ fields, planned.Explains schema level object context error)
    distinct fun planned member => (each planned member).mono fun error explained =>
      ⟨planned, member, explained⟩
  exact parts.wrap fun segment rest entries value lookIs => entryAt_below lookIs

def objectOf (schema : Schema) (level : ReportLevel) (context : Context)
    (place : FieldPlace) (plan : Plan) (value : Value) : Completion Value :=
  match schema.object? plan.object with
  | none => .rise place .broken
  | some inner =>
      (schema.resolveFields level inner (context.child value) plan.fields).map Value.record

theorem resolveField_composite (key : String) (position : Position) (name : String)
    (arguments : Record) (id : ObjectIndex) (fields : List PlannedField) :
    schema.resolveField level object context
        (.composite key position name arguments id fields) =
      match object.fields.find? name with
      | none => FieldPlace.fail ⟨object.name, name, position⟩ false .broken
      | some field =>
          field.resolve level context arguments ⟨object.name, name, position⟩
            (schema.objectOf level context ⟨object.name, name, position⟩ ⟨id, fields⟩) := by
  rw [resolveField]
  rfl

theorem accounts_objectOf {site : Site} {plan : Plan} {inner : ObjectType}
    (fieldsAre : site.fields = plan.fields)
    (innerFound : schema.object? plan.object = some inner)
    (distinct : (plan.fields.map PlannedField.key).Nodup)
    (each : ∀ planned ∈ plan.fields, ∀ context,
      (schema.resolveField level inner context planned).AccountsFor fun error =>
        planned.Explains schema level inner context (error.under (.key planned.key)))
    (required : Bool) {value : Value} (something : value.stripped.isNothing = false)
    (noList : value.stripped.kind ≠ .sequence) :
    (schema.objectOf level site.context site.place plan value.stripped).AccountsFor
      ((site.holding (.object plan.object required) value).Explains schema level) := by
  simp only [objectOf, innerFound]
  have fieldsAccount := accounts_object distinct fun planned member =>
    each planned member (site.context.child value.stripped)
  refine fieldsAccount.mono fun error explained => ?_
  obtain ⟨planned, member, next, rest, target, nextIs, pathIs, leads, faultIs, placeIs⟩ :=
    explained
  refine ⟨target, ?_, faultIs, placeIs⟩
  rw [pathIs]
  rw [← fieldsAre] at member
  exact .inner rfl rfl something noList innerFound member nextIs leads

/-- The errors of a planned field that fits are accounted for, those of a field with
fields of its own by the fields below. -/
theorem accounts_resolveField {planned : PlannedField} (fits : planned.Fits schema object)
    (level : ReportLevel) (context : Context) :
    (schema.resolveField level object context planned).AccountsFor fun error =>
      planned.Explains schema level object context (error.under (.key planned.key)) := by
  induction fits generalizing context with
  | typename key position =>
      rw [resolveField]
      exact .ok _
  | @leaf object name field key position arguments found noObject =>
      rw [resolveField, found]
      have accounts := @ObjectField.accounts_resolve schema field level context arguments
        ⟨object.name, name, position⟩ [] (fun _ => .rise ⟨object.name, name, position⟩ .broken)
        fun id required value ofObject => by
          rw [noObject] at ofObject
          cases ofObject
      refine accounts.mono fun error explained => ?_
      obtain ⟨target, leads, faultIs, placeIs⟩ := explained
      refine ⟨_, error.path, target, ?_, rfl, leads, faultIs, placeIs⟩
      rw [PlannedField.site?, found]
      rfl
  | @composite object inner name field id fields key position arguments found ofObject
      innerFound distinct inside ih =>
      rw [resolveField_composite, found]
      have accounts := @ObjectField.accounts_resolve schema field level context arguments
        ⟨object.name, name, position⟩ fields
        (schema.objectOf level context ⟨object.name, name, position⟩ ⟨id, fields⟩)
        fun otherId required value isObject something noList => by
          rw [ofObject] at isObject
          cases isObject
          exact @accounts_objectOf schema level
            (field.site level context arguments ⟨object.name, name, position⟩ fields)
            ⟨id, fields⟩ inner rfl innerFound distinct ih required value something noList
      refine accounts.mono fun error explained => ?_
      obtain ⟨target, leads, faultIs, placeIs⟩ := explained
      refine ⟨_, error.path, target, ?_, rfl, leads, faultIs, placeIs⟩
      rw [PlannedField.site?, found]
      rfl

/-- Every error of a plan is the fault of a site that its path leads to, no two errors
have one path, the data is null on the path of each error, and it is null altogether
only when there is an error. -/
theorem execute_accounts {scope : PlanScope} {allowance : Nat} {id : ObjectIndex}
    {lists : List (List Selection)} {plan : Plan}
    (planned : scope.planSelections allowance id lists = .ok plan) (level : ReportLevel)
    (context : Context) :
    ∃ object data, scope.schema.object? plan.object = some object ∧
      (scope.schema.execute level plan context).result = some data ∧
      (∀ error ∈ (scope.schema.execute level plan context).errors, ∃ planned ∈ plan.fields,
        planned.Explains scope.schema level object context error) ∧
      ((scope.schema.execute level plan context).errors.map FieldError.path).Nodup ∧
      (∀ error ∈ (scope.schema.execute level plan context).errors,
        data.HasNullOn error.path) ∧
      (data = .null → (scope.schema.execute level plan context).errors ≠ []) := by
  obtain ⟨_, object, fits⟩ := scope.planSelections_fits allowance id lists plan planned
  have accounts := accounts_object fits.distinct fun planned member =>
    accounts_resolveField (fits.fields planned member) level context
  have executed : scope.schema.execute level plan context =
      ((scope.schema.resolveFields level object context plan.fields).map
        Value.record).settle false := by
    simp only [execute, fits.found]
  have noNull : ((scope.schema.resolveFields level object context plan.fields).map
      Value.record).result ≠ some .null := by
    intro isNull
    obtain ⟨entries, _, impossible⟩ := Option.map_eq_some_iff.mp isNull
    cases impossible
  obtain ⟨data, resultIs, explained⟩ := accounts.exists_result noNull
  have settled := accounts.settle false
  rw [executed]
  exact ⟨object, data, fits.found, resultIs, settled.traces, settled.distinct,
    settled.covered data resultIs, explained⟩

theorem execute_accounts_ofHeroes :
    PlanScope.ofHeroes.planSelections 4 0 [Selection.ofHeroes] = .ok .ofHeroes ∧
      (∃ object data, Schema.ofHeroes.object? Plan.ofHeroes.object = some object ∧
        (Schema.ofHeroes.execute .off .ofHeroes .ofHeroes).result = some data ∧
        (∀ error ∈ (Schema.ofHeroes.execute .off .ofHeroes .ofHeroes).errors,
          ∃ planned ∈ Plan.ofHeroes.fields,
            planned.Explains .ofHeroes .off object .ofHeroes error) ∧
        ((Schema.ofHeroes.execute .off .ofHeroes .ofHeroes).errors.map
          FieldError.path).Nodup ∧
        (∀ error ∈ (Schema.ofHeroes.execute .off .ofHeroes .ofHeroes).errors,
          data.HasNullOn error.path) ∧
        (data = .null → (Schema.ofHeroes.execute .off .ofHeroes .ofHeroes).errors ≠ [])) ∧
      (Schema.ofHeroes.execute .off .ofHeroes .ofHeroes).errors.map FieldError.path =
        [[.key "heroes", .index 1, .key "name"]] :=
  ⟨rfl, @execute_accounts .ofHeroes 4 0 [Selection.ofHeroes] .ofHeroes rfl .off .ofHeroes, rfl⟩

end Schema

end StagedResolver
