/-
Where responses show null.

What is required at a position is neither null nor absent, and still may be shown as null:
numbers that are not finite have no JSON form.  Nothing else that is required is shown so.
-/
import StagedResolver.Engine.Basic
import StagedResolver.Proofs.Execution.Accounting
import StagedResolver.Proofs.Execution.Conformity
import StagedResolver.Proofs.Plan.Validity

namespace StagedResolver

def Json.at? : List PathStep → Json → Option Json
  | [], document => some document
  | .key name :: rest, .object members => (Entries.find? name members).bind (at? rest)
  | .index position :: rest, .array items => items[position]?.bind (at? rest)
  | _ :: _, _ => none

namespace Value

variable {style : AbsenceStyle}

theorem itemsToJson_eq_map (items : List Value) :
    itemsToJson style items = items.map (toJson style) := by
  induction items with
  | nil => rfl
  | cons item rest ih => rw [itemsToJson, List.map_cons, ih]

theorem find?_entriesToJson {entries : Record} (distinct : Entries.DistinctKeys entries)
    (key : String) :
    Entries.find? key (entriesToJson style entries) =
      (Entries.find? key entries).bind fun held =>
        if style = .omit ∧ held.isAbsent then none else some (held.toJson style) := by
  induction entries with
  | nil => rfl
  | cons entry rest ih =>
      obtain ⟨name, held⟩ := entry
      obtain ⟨fresh, distinctRest⟩ := List.nodup_cons.mp distinct
      have later := ih distinctRest
      rw [entriesToJson, Entries.find?]
      by_cases same : name = key
      · subst same
        have notLater : Entries.find? name rest = none := Entries.find?_eq_none_iff.mpr fresh
        rw [notLater] at later
        rw [if_pos rfl, Option.bind_some]
        split
        · exact later
        · rw [Entries.find?, if_pos rfl]
      · rw [if_neg same, ← later]
        split
        · rfl
        · rw [Entries.find?, if_neg same]

end Value

private theorem Value.Stands.nothing_or {required : Bool} {content : Value → Prop} {value : Value}
    (stands : value.Stands required content) :
    required = false ∧ (value = .null ∨ value = .absent) ∨ content value := by
  cases value with
  | null => exact .inl ⟨stands, .inl rfl⟩
  | absent => exact .inl ⟨stands, .inr rfl⟩
  | _ => exact .inr stands

theorem Value.Stands.imp {required : Bool} {content other : Value → Prop} {value : Value}
    (stands : value.Stands required content)
    (implies : ∀ found, content found → other found) : value.Stands required other := by
  cases value with
  | null => exact stands
  | absent => exact stands
  | _ => exact implies _ stands

theorem Shape.Conforms.imp {content other : Record → Prop} {shape : Shape} {value : Value}
    (conforms : shape.Conforms content value)
    (implies : ∀ entries, content entries → other entries) : shape.Conforms other value := by
  induction shape generalizing value with
  | scalar leaf required => exact conforms
  | object id required =>
      refine Value.Stands.imp conforms ?_
      rintro found ⟨entries, foundIs, isContent⟩
      exact ⟨entries, foundIs, implies entries isContent⟩
  | list item required ih =>
      refine Value.Stands.imp conforms ?_
      rintro found ⟨items, foundIs, each⟩
      exact ⟨items, foundIs, fun element member => ih (each element member)⟩

private theorem Shape.Conforms.not_present {content : Record → Prop} {shape : Shape}
    {inner : Value} :
    ¬ shape.Conforms content (.present inner) := by
  intro conforms
  cases shape with
  | scalar leaf required =>
      cases leaf with
      | json => exact conforms rfl
      | _ => cases conforms
  | object id required =>
      obtain ⟨_, impossible, _⟩ := conforms
      cases impossible
  | list item required =>
      obtain ⟨_, impossible, _⟩ := conforms
      cases impossible

private theorem Shape.Conforms.eq_absent {content : Record → Prop} {shape : Shape} {value : Value}
    (conforms : shape.Conforms content value) (isAbsent : value.isAbsent = true) :
    value = .absent := by
  cases value with
  | absent => rfl
  | present inner => exact absurd conforms not_present
  | _ => cases isAbsent

private theorem Shape.Conforms.required_eq_false {content : Record → Prop} {shape : Shape}
    {value : Value}
    (conforms : shape.Conforms content value) (nothing : value = .null ∨ value = .absent) :
    shape.required = false := by
  cases shape with
  | _ => rcases nothing with rfl | rfl <;> exact conforms

private theorem Shape.Conforms.kind_ne {content : Record → Prop} {shape : Shape} {value : Value}
    (conforms : shape.Conforms content value) (required : shape.required = true) :
    value.kind ≠ .null ∧ value.kind ≠ .optional := by
  have something : ¬ (value = .null ∨ value = .absent) := fun nothing =>
    Bool.false_ne_true ((conforms.required_eq_false nothing).symm.trans required)
  cases value with
  | null => exact absurd (.inl rfl) something
  | absent => exact absurd (.inr rfl) something
  | present inner => exact absurd conforms not_present
  | _ => exact ⟨nofun, nofun⟩

/-- What is there, without layers, is shown as null exactly when it is a number that is not
finite. -/
theorem Value.toJson_eq_null_iff {value : Value} (noNull : value.kind ≠ .null)
    (noLayer : value.kind ≠ .optional) (style : AbsenceStyle) :
    value.toJson style = .null ↔
      ∃ number, value = .float number ∧ number.isFinite = false := by
  cases value with
  | null => exact absurd rfl noNull
  | absent => exact absurd rfl noLayer
  | present inner => exact absurd rfl noLayer
  | float number =>
      rw [toJson]
      cases finite : number.isFinite with
      | true =>
          refine ⟨fun isNull => Json.noConfusion isNull, ?_⟩
          rintro ⟨_, ⟨⟩, notFinite⟩
          rw [finite] at notFinite
          cases notFinite
      | false => exact ⟨fun _ => ⟨number, rfl, finite⟩, fun _ => rfl⟩
  | _ =>
      rw [toJson]
      constructor
      · intro isNull
        cases isNull
      · rintro ⟨_, isFloat, _⟩
        cases isFloat

private theorem Shape.Conforms.scalar_of_float {content : Record → Prop} {shape : Shape}
    {number : Binary64} (conforms : shape.Conforms content (.float number)) :
    ∃ required, shape = .scalar .float required ∨ shape = .scalar .json required := by
  cases shape with
  | scalar leaf required =>
      cases leaf with
      | float => exact ⟨required, .inl rfl⟩
      | json => exact ⟨required, .inr rfl⟩
      | _ => cases conforms
  | object id required =>
      obtain ⟨_, impossible, _⟩ := conforms
      cases impossible
  | list item required =>
      obtain ⟨_, impossible, _⟩ := conforms
      cases impossible

namespace PlannedField

/-! ### Positions -/

def shape? (object : ObjectType) : PlannedField → Option Shape
  | .typename _ _ => some (.scalar .string true)
  | .leaf _ _ name _ => (object.fields.find? name).map fun field => field.resolution.shape
  | .composite _ _ name _ _ _ =>
      (object.fields.find? name).map fun field => field.resolution.shape

def Content (schema : Schema) : PlannedField → Record → Prop
  | .composite _ _ _ _ id fields, entries =>
      ∃ inner, schema.object? id = some inner ∧ AllConform schema inner fields entries
  | _, _ => False

variable {schema : Schema} {object inner : ObjectType} {planned : PlannedField}
variable {shape target : Shape} {value : Value} {path : List PathStep}

private theorem Conforms.toShape (conforms : planned.Conforms schema object value)
    (shapeIs : planned.shape? object = some shape) :
    shape.Conforms (planned.Content schema) value := by
  cases planned with
  | typename key position =>
      cases shapeIs
      rw [Conforms] at conforms
      rw [conforms]
      exact rfl
  | leaf key position name arguments =>
      rw [Conforms] at conforms
      obtain ⟨field, found, fieldConforms⟩ := conforms
      rw [shape?, found] at shapeIs
      cases shapeIs
      exact fieldConforms.imp fun _ impossible => impossible.elim
  | composite key position name arguments id fields =>
      rw [Conforms] at conforms
      obtain ⟨field, inner, found, innerFound, fieldConforms⟩ := conforms
      rw [shape?, found] at shapeIs
      cases shapeIs
      exact fieldConforms.imp fun _ conform => ⟨inner, innerFound, conform⟩

private theorem AllConform.of_mem {fields : List PlannedField} {entries : Record}
    (conform : AllConform schema inner fields entries) (member : planned ∈ fields) :
    ∃ value, (planned.key, value) ∈ entries ∧ planned.Conforms schema inner value := by
  induction fields generalizing entries with
  | nil => cases member
  | cons first rest ih =>
      rw [AllConform] at conform
      obtain ⟨value, others, rfl, firstConforms, othersConform⟩ := conform
      rcases List.mem_cons.mp member with rfl | later
      · exact ⟨value, List.mem_cons_self .., firstConforms⟩
      · obtain ⟨found, foundMember, conforms⟩ := ih othersConform later
        exact ⟨found, List.mem_cons_of_mem _ foundMember, conforms⟩

theorem AllConform.find?_of_mem {fields : List PlannedField} {entries : Record}
    (conform : AllConform schema inner fields entries) (distinct : (fields.map key).Nodup)
    (member : planned ∈ fields) :
    Entries.DistinctKeys entries ∧ ∃ value,
      Entries.find? planned.key entries = some value ∧ planned.Conforms schema inner value := by
  have distinctEntries : Entries.DistinctKeys entries := by
    rw [Entries.DistinctKeys, conform.keys]
    exact distinct
  obtain ⟨value, valueMember, conforms⟩ := conform.of_mem member
  exact ⟨distinctEntries, value, distinctEntries.find?_of_mem valueMember, conforms⟩

/-- The shapes that a planned field demands at the positions inside it, when it has a shape
itself: of the items of lists by their indices, and of the fields of objects by their
keys. -/
inductive Demands (schema : Schema) : PlannedField → Shape → List PathStep → Shape → Prop where
  | here (planned : PlannedField) (shape : Shape) : Demands schema planned shape [] shape
  | item {planned : PlannedField} {item target : Shape} {path : List PathStep}
      (required : Bool) (index : Nat) (demands : Demands schema planned item path target) :
      Demands schema planned (.list item required) (.index index :: path) target
  | field {key : String} {position : Position} {name : String} {arguments : Record}
      {id : ObjectIndex} {fields : List PlannedField} {inner : ObjectType}
      {planned : PlannedField} {shape target : Shape} {path : List PathStep}
      (required : Bool) (innerFound : schema.object? id = some inner)
      (member : planned ∈ fields) (shapeIs : planned.shape? inner = some shape)
      (demands : Demands schema planned shape path target) :
      Demands schema (.composite key position name arguments id fields)
        (.object id required) (.key planned.key :: path) target

theorem Fits.inside {key : String} {position : Position} {name : String} {arguments : Record}
    {id : ObjectIndex} {fields : List PlannedField}
    (fits : (PlannedField.composite key position name arguments id fields).Fits schema object)
    (innerFound : schema.object? id = some inner) :
    (fields.map PlannedField.key).Nodup ∧ ∀ planned ∈ fields, planned.Fits schema inner := by
  cases fits with
  | composite _ _ _ _ _ fitsFound distinct inside =>
      cases innerFound.symm.trans fitsFound
      exact ⟨distinct, inside⟩

private theorem Demands.conforms_at? {found : Value}
    (demands : planned.Demands schema shape path target) (fits : planned.Fits schema object)
    (conforms : shape.Conforms (planned.Content schema) value)
    (foundAt : value.at? path = some found) : ∃ content, target.Conforms content found := by
  induction demands generalizing object value with
  | here planned shape =>
      cases foundAt
      exact ⟨_, conforms⟩
  | item required index _ ih =>
      rcases Value.Stands.nothing_or conforms with ⟨_, rfl | rfl⟩ | ⟨items, rfl, each⟩
      · cases foundAt
      · cases foundAt
      · obtain ⟨element, atIndex, below⟩ := Option.bind_eq_some_iff.mp foundAt
        exact ih fits (each element (List.mem_of_getElem? atIndex)) below
  | field required innerFound member shapeIs _ ih =>
      rcases Value.Stands.nothing_or conforms with
        ⟨_, rfl | rfl⟩ | ⟨entries, rfl, inner, innerIs, conform⟩
      · cases foundAt
      · cases foundAt
      · cases innerFound.symm.trans innerIs
        obtain ⟨distinct, inside⟩ := fits.inside innerFound
        obtain ⟨_, held, heldFound, heldConforms⟩ := conform.find?_of_mem distinct member
        rw [Value.at?, heldFound, Option.bind_some] at foundAt
        exact ih (inside _ member) (heldConforms.toShape shapeIs) foundAt

private theorem Demands.at?_absent {content : Record → Prop}
    (demands : planned.Demands schema shape path target) (required : target.required = true)
    (conforms : shape.Conforms content .absent) : Value.absent.at? path = none := by
  cases demands with
  | here => exact absurd rfl (conforms.kind_ne required).2
  | item => rfl
  | field => rfl

/-- What is shown below the key of a planned field is the document of what stands there,
when that holds of the value of the field and nothing is asked for below what is absent. -/
theorem AllConform.at?_toJson_of {fields : List PlannedField} {entries : Record}
    {style : AbsenceStyle} (conform : AllConform schema inner fields entries)
    (distinct : (fields.map key).Nodup) (member : planned ∈ fields)
    (shapeIs : planned.shape? inner = some shape)
    (nothing : shape.Conforms (planned.Content schema) .absent → Value.absent.at? path = none)
    (below : ∀ held : Value, shape.Conforms (planned.Content schema) held →
      (held.toJson style).at? path = (held.at? path).map (Value.toJson style)) :
    ((Value.record entries).toJson style).at? (.key planned.key :: path) =
      ((Value.record entries).at? (.key planned.key :: path)).map (Value.toJson style) := by
  obtain ⟨distinctEntries, held, heldFound, heldConforms⟩ :=
    conform.find?_of_mem distinct member
  have heldShape := heldConforms.toShape shapeIs
  rw [Value.toJson, Json.at?, Value.find?_entriesToJson distinctEntries, Value.at?, heldFound,
    Option.bind_some, Option.bind_some]
  split
  · rename_i leftOut
    cases heldShape.eq_absent leftOut.2
    rw [nothing heldShape]
    rfl
  · exact below held heldShape

/-- What is shown where something is required is the document of what stands there. -/
theorem Demands.at?_toJson (style : AbsenceStyle)
    (demands : planned.Demands schema shape path target) (required : target.required = true)
    (fits : planned.Fits schema object)
    (conforms : shape.Conforms (planned.Content schema) value) :
    (value.toJson style).at? path = (value.at? path).map (Value.toJson style) := by
  -- Only an entry that is absent can be left out, and nothing is required below it.
  induction demands generalizing object value with
  | here => rfl
  | item _ index _ ih =>
      rcases Value.Stands.nothing_or conforms with ⟨_, rfl | rfl⟩ | ⟨items, rfl, each⟩
      · rfl
      · rfl
      · rw [Value.toJson, Value.itemsToJson_eq_map, Json.at?, List.getElem?_map, Value.at?]
        cases atIndex : items[index]? with
        | none => rfl
        | some element =>
            exact ih required fits (each element (List.mem_of_getElem? atIndex))
  | field _ innerFound member shapeIs demands ih =>
      rcases Value.Stands.nothing_or conforms with
        ⟨_, rfl | rfl⟩ | ⟨entries, rfl, inner, innerIs, conform⟩
      · rfl
      · rfl
      · cases innerFound.symm.trans innerIs
        obtain ⟨distinct, inside⟩ := fits.inside innerFound
        exact conform.at?_toJson_of distinct member shapeIs (demands.at?_absent required)
          fun _ => ih required (inside _ member)

/-- In an object, what is shown at a required position is the document of what stands there.
It is null exactly for a number that is not finite, and only where a float or any JSON is
asked for. -/
theorem AllConform.shows {fields : List PlannedField} {entries : Record}
    (style : AbsenceStyle) (conform : AllConform schema object fields entries)
    (distinct : (fields.map key).Nodup)
    (fits : ∀ planned ∈ fields, planned.Fits schema object) (member : planned ∈ fields)
    (shapeIs : planned.shape? object = some shape)
    (demands : planned.Demands schema shape path target) (required : target.required = true) :
    let shown := ((Value.record entries).toJson style).at? (.key planned.key :: path)
    let standing := (Value.record entries).at? (.key planned.key :: path)
    shown = standing.map (Value.toJson style) ∧
      (shown = some .null ↔
        ∃ number, standing = some (.float number) ∧ number.isFinite = false) ∧
      (shown = some .null → target = .scalar .float true ∨ target = .scalar .json true) := by
  intro shown standing
  have same : shown = standing.map (Value.toJson style) :=
    conform.at?_toJson_of distinct member shapeIs (demands.at?_absent required)
      fun _ => demands.at?_toJson style required (fits planned member)
  have conforming (found : Value) (foundAt : standing = some found) :
      ∃ content, target.Conforms content found := by
    obtain ⟨_, held, heldFound, heldConforms⟩ := conform.find?_of_mem distinct member
    simp only [standing, Value.at?, heldFound, Option.bind_some] at foundAt
    exact demands.conforms_at? (fits planned member) (heldConforms.toShape shapeIs) foundAt
  have null_iff : shown = some .null ↔
      ∃ number, standing = some (.float number) ∧ number.isFinite = false := by
    rw [same, Option.map_eq_some_iff]
    constructor
    · rintro ⟨found, foundAt, isNull⟩
      obtain ⟨content, conforms⟩ := conforming found foundAt
      obtain ⟨noNull, noLayer⟩ := conforms.kind_ne required
      obtain ⟨number, rfl, notFinite⟩ := (Value.toJson_eq_null_iff noNull noLayer style).mp isNull
      exact ⟨number, foundAt, notFinite⟩
    · rintro ⟨number, foundAt, notFinite⟩
      have isNull : (Value.float number).toJson style = .null := by
        rw [Value.toJson, notFinite]
        rfl
      exact ⟨.float number, foundAt, isNull⟩
  refine ⟨same, null_iff, fun isNull => ?_⟩
  obtain ⟨number, foundAt, _⟩ := null_iff.mp isNull
  obtain ⟨content, conforms⟩ := conforming _ foundAt
  obtain ⟨isRequired, rfl | rfl⟩ := conforms.scalar_of_float
  · cases required
    exact .inl rfl
  · cases required
    exact .inr rfl

end PlannedField

/-! ### Responses -/

namespace Engine

variable {engine : Engine} {request : Request}

theorem planned_of_prepare {plan : Plan} (prepared : engine.prepare request = .ok plan) :
    ∃ (scope : PlanScope) (selections : List Selection), scope.schema = engine.schema ∧
      scope.plan selections = .ok plan := by
  obtain ⟨document, _, prepared⟩ := bind_eq_ok.mp prepared
  obtain ⟨operation, _, prepared⟩ := bind_eq_ok.mp prepared
  obtain ⟨_, _, prepared⟩ := bind_eq_ok.mp prepared
  obtain ⟨assignment, _, prepared⟩ := bind_eq_ok.mp prepared
  exact ⟨_, operation.selections, rfl, mapError_eq_ok.mp prepared⟩

theorem execute_refused {refusal : Refusal}
    (refused : engine.prepare request = .error refusal) :
    engine.execute request = ⟨.refusal refusal.errors, []⟩ := by
  delta execute
  simp only [refused]

theorem execute_prepared {plan : Plan} (prepared : engine.prepare request = .ok plan) :
    engine.execute request =
      let completion := engine.schema.execute engine.settings.level plan
        (engine.rootContext request)
      ⟨⟨completion.result, completion.errors.map FieldError.toResponse,
        engine.settings.absence⟩, completion.reports⟩ := by
  delta execute
  simp only [prepared]

private theorem response_of_prepared {plan : Plan} (prepared : engine.prepare request = .ok plan) :
    ∃ errors, (engine.execute request).response =
      ⟨(engine.schema.execute engine.settings.level plan
        (engine.rootContext request)).result, errors, engine.settings.absence⟩ := by
  rw [execute_prepared prepared]
  exact ⟨_, rfl⟩

/-- Where something is required, a response shows what stands there, and shows it as null
exactly when it is a number that is not finite; such a number stands only where floats or
any JSON are asked for. -/
theorem execute_shows (engine : Engine) (request : Request) (data : Value)
    (dataIs : (engine.execute request).response.data = some data) (notNull : data ≠ .null) :
    ∃ plan object document, engine.prepare request = .ok plan ∧
      engine.schema.object? plan.object = some object ∧
      (engine.execute request).response.toJson.at? [.key "data"] = some document ∧
      (engine.execute request).response.dataText = document.render ∧
      ∀ planned ∈ plan.fields, ∀ shape path target,
        planned.shape? object = some shape →
          planned.Demands engine.schema shape path target → target.required = true →
            document.at? (.key planned.key :: path) =
                (data.at? (.key planned.key :: path)).map
                  (Value.toJson engine.settings.absence) ∧
              (document.at? (.key planned.key :: path) = some .null ↔ ∃ number,
                data.at? (.key planned.key :: path) = some (.float number) ∧
                  number.isFinite = false) ∧
              (document.at? (.key planned.key :: path) = some .null →
                target = .scalar .float true ∨ target = .scalar .json true) := by
  cases prepared : engine.prepare request with
  | error refusal =>
      rw [execute_refused prepared] at dataIs
      cases dataIs
  | ok plan =>
      obtain ⟨errors, responseIs⟩ := response_of_prepared prepared
      obtain ⟨scope, selections, sameSchema, planned⟩ := planned_of_prepare prepared
      obtain ⟨_, object, fits⟩ := scope.planSelections_fits _ _ _ plan planned
      have conforms := Schema.execute_conforms planned engine.settings.level
        (engine.rootContext request)
      rw [sameSchema] at fits conforms
      obtain ⟨found, resultIs, whenNotNull⟩ := conforms
      rw [resultIs] at responseIs
      rw [responseIs] at dataIs
      cases dataIs
      obtain ⟨other, entries, objectIs, rfl, _, conform⟩ := whenNotNull notNull
      rw [fits.found] at objectIs
      cases objectIs
      refine ⟨plan, object, (Value.record entries).toJson engine.settings.absence, rfl,
        fits.found, ?_, ?_, ?_⟩
      · rw [responseIs]
        rfl
      · rw [responseIs]
        rfl
      · intro field member shape path target shapeIs demands required
        exact conform.shows engine.settings.absence fits.distinct fits.fields member shapeIs
          demands required

end Engine

/-! ### A quotient by zero -/

def SchemaDeclaration.ofQuotient : SchemaDeclaration :=
  let number (value : Binary64) : Term := .constant .float (.float value)
  let quotient : Term := .binary .div (number ⟨0x3FF0000000000000⟩) (number .zero)
  (SchemaDeclaration.ofQuery "Query").object "Query"
    (ObjectDeclaration.field .empty "f" ((FieldDeclaration.ofType "Float!").resolve quotient))

def ObjectField.ofQuotient : ObjectField :=
  let number (value : Binary64) : Expression := .constant (.float value)
  let quotient : Expression := .binary .div (number ⟨0x3FF0000000000000⟩) (number .zero)
  ⟨"f", .named "Float" true, .empty, ⟨.computed quotient, .scalar .float true⟩⟩

def ObjectType.ofQuotient : ObjectType := ⟨"Query", .ofEntries [("f", .ofQuotient)]⟩

def Engine.ofQuotient : Engine := ⟨⟨0, [.ofQuotient]⟩, .standard⟩

def Request.ofQuotient : Request := ⟨"{f}", none, [], .null, []⟩

def Plan.ofQuotient : Plan := ⟨0, [.leaf "f" ⟨1, 2⟩ "f" []]⟩

def Document.plainField? : Document → Option (Located String)
  | ⟨[⟨none, .query, [], [.field ⟨none, name, [], []⟩ []]⟩], ⟨[], _⟩⟩ => some name
  | _ => none

private theorem Document.eq_of_plainField? {document : Document} {name : Located String}
    (plain : document.plainField? = some name) :
    document = ⟨[⟨none, .query, [], [.field ⟨none, name, [], []⟩ []]⟩], .empty⟩ := by
  unfold plainField? at plain
  split at plain
  · cases plain
    rfl
  · cases plain

namespace Engine

private theorem readType_ofQuotient (place : SchemaPlace) :
    readType place "Float!" = .ok (.named "Float" true) := by
  have parsed : TypeReference.parse? "Float!" = some (.named "Float" true) := by
    decide +kernel
  exact readType_eq_ok.mpr parsed

private theorem fitOutput_ofQuotient (place : SchemaPlace) (type : TypeReference) :
    fitOutput place type (.scalar .float true) .float = .ok () := by
  rw [fitOutput]
  rfl

theorem ofDeclaration_ofQuotient :
    Engine.ofDeclaration .ofQuotient .standard = .ok .ofQuotient := by
  refine bind_eq_ok.mpr ⟨_, bind_eq_ok.mpr ⟨[("Query", .ofQuotient)], ?_, rfl⟩, rfl⟩
  refine bind_eq_ok.mpr ⟨.ofQuotient, bind_eq_ok.mpr ⟨[("f", .ofQuotient)], ?_, rfl⟩, rfl⟩
  refine bind_eq_ok.mpr ⟨.ofQuotient, ?_, rfl⟩
  refine bind_eq_ok.mpr ⟨_, readType_ofQuotient _, bind_eq_ok.mpr ⟨_, rfl, ?_⟩⟩
  refine bind_eq_ok.mpr ⟨_, rfl, bind_eq_ok.mpr ⟨_, ?_, rfl⟩⟩
  exact bind_eq_ok.mpr ⟨_, fitOutput_ofQuotient _ _, rfl⟩

private theorem parse_ofQuotient :
    Document.parse "{f}" =
      .ok ⟨[⟨none, .query, [], [.field ⟨none, ⟨"f", ⟨1, 2⟩⟩, [], []⟩ []]⟩], .empty⟩ := by
  have plain : (Document.parse "{f}").toOption.bind Document.plainField? =
      some ⟨"f", ⟨1, 2⟩⟩ := by decide +kernel
  cases parsed : Document.parse "{f}" with
  | error fault =>
      rw [parsed] at plain
      cases plain
  | ok document =>
      rw [parsed] at plain
      rw [Document.eq_of_plainField? plain]

private theorem prepare_ofQuotient : Engine.ofQuotient.prepare .ofQuotient = .ok .ofQuotient := by
  refine bind_eq_ok.mpr ⟨_, mapError_eq_ok.mpr parse_ofQuotient, ?_⟩
  refine bind_eq_ok.mpr ⟨_, rfl, bind_eq_ok.mpr ⟨(), mapError_eq_ok.mpr ?_, ?_⟩⟩
  · exact Document.walk_eq_ok_iff.mpr
      (Document.valid_field_cons.mpr ⟨rfl, Document.valid_nil, Document.valid_nil⟩)
  · refine bind_eq_ok.mpr ⟨⟨[], []⟩, rfl, mapError_eq_ok.mpr ?_⟩
    with_unfolding_all rfl

theorem data_ofQuotient :
    (Engine.ofQuotient.execute .ofQuotient).response.data =
      some (.record [("f", .float .infinity)]) := by
  obtain ⟨errors, responseIs⟩ := response_of_prepared prepare_ofQuotient
  rw [responseIs]
  rfl

private theorem toJson_ofQuotient :
    (Engine.ofQuotient.execute .ofQuotient).response.toJson.at? [.key "data", .key "f"] =
      some .null := by
  obtain ⟨errors, responseIs⟩ := response_of_prepared prepare_ofQuotient
  rw [responseIs]
  rfl

/-- What is required may be shown as null. -/
theorem required_shown_as_null :
    ¬ ∀ (declaration : SchemaDeclaration) (settings : Settings) (engine : Engine)
      (request : Request) (data : Value) (plan : Plan) (object : ObjectType)
      (planned : PlannedField) (shape target : Shape) (path : List PathStep) (json : Json),
      Engine.ofDeclaration declaration settings = .ok engine →
        (engine.execute request).response.data = some data → data ≠ .null →
          engine.prepare request = .ok plan →
            engine.schema.object? plan.object = some object → planned ∈ plan.fields →
              planned.shape? object = some shape →
                planned.Demands engine.schema shape path target → target.required = true →
                  (engine.execute request).response.toJson.at?
                    (.key "data" :: .key planned.key :: path) = some json → json ≠ .null := by
  intro claimed
  exact claimed .ofQuotient .standard .ofQuotient .ofQuotient _ .ofQuotient .ofQuotient
    (.leaf "f" ⟨1, 2⟩ "f" []) _ _ [] .null ofDeclaration_ofQuotient data_ofQuotient nofun
    prepare_ofQuotient rfl (List.mem_cons_self ..) rfl (.here _ _) rfl toJson_ofQuotient rfl

theorem execute_shows_ofQuotient :
    (Engine.ofQuotient.execute .ofQuotient).response.data =
        some (.record [("f", .float .infinity)]) ∧
      (Value.record [("f", .float .infinity)] ≠ .null) ∧
      ∃ document : Json, (Engine.ofQuotient.execute .ofQuotient).response.dataText =
          document.render ∧
        document.at? [.key "f"] = some .null := by
  obtain ⟨plan, object, document, prepared, objectIs, _, textIs, positions⟩ :=
    execute_shows .ofQuotient .ofQuotient _ data_ofQuotient nofun
  rw [prepare_ofQuotient] at prepared
  cases prepared
  cases objectIs
  refine ⟨data_ofQuotient, nofun, document, textIs, ?_⟩
  exact (positions (.leaf "f" ⟨1, 2⟩ "f" []) (List.mem_cons_self ..) _ [] _ rfl (.here _ _)
    rfl).1

end Engine

end StagedResolver
