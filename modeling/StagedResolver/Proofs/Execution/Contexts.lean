/-
Contexts mirror the objects of a response.

A source is evaluated in a context that has one level for each object around its field: the
levels hold the values that the objects were made of, and lists make no level.  The
arguments of the field stand at the innermost level, and the environment of the request at
all of them.
-/
import StagedResolver.Proofs.Execution.Enclosure
import StagedResolver.Proofs.Execution.Recording
import StagedResolver.Proofs.Plan.Validity
import StagedResolver.Proofs.Schema.Declared

namespace StagedResolver

/-- Whether an evaluation is of a field that is asked of an object, with the arguments that
are planned for it. -/
structure Visit.OfObject (environment : Record) (above : List PathStep)
    (object : ResponseObject) (name : String) (arguments : Record) (visit : Visit) : Prop where
  path : visit.path = above ++ [.key visit.planned.key]
  member : visit.planned ∈ object.fields
  asked : visit.planned.asked? = some (name, arguments)
  field : object.type.fields.find? name = some visit.field
  context : visit.context = (object.context environment).withArguments arguments

/-- Whether an evaluation is of a field of an object that lies in another one. -/
def Schema.Reaches (schema : Schema) (level : ReportLevel) (environment : Record)
    (object : ResponseObject) (visit : Visit) : Prop :=
  ∃ above inner name arguments, schema.Encloses level environment object above inner ∧
    visit.OfObject environment above inner name arguments

theorem Visit.OfObject.under {environment : Record} {above : List PathStep}
    {object : ResponseObject} {name : String} {arguments : Record} {visit : Visit}
    (ofObject : visit.OfObject environment above object name arguments)
    (upper : List PathStep) :
    (visit.under upper).OfObject environment (upper ++ above) object name arguments := by
  obtain ⟨path, member, asked, field, context⟩ := ofObject
  refine ⟨?_, member, asked, field, context⟩
  rw [Visit.under, path, List.append_assoc]

private theorem Recorded.mem_visits_andThen {α β : Type} {first : Recorded α}
    {next : α → Recorded β}
    {visit : Visit} (member : visit ∈ (first.andThen next).visits) :
    visit ∈ first.visits ∨ ∃ found, visit ∈ (next found).visits := by
  rcases List.mem_append.mp member with before | after
  · exact .inl before
  · cases result : first.completion.result with
    | none =>
        rw [result] at after
        cases after
    | some found =>
        rw [result] at after
        exact .inr ⟨found, after⟩

namespace FieldPlace

variable {place : FieldPlace} {required : Bool} {visit : Visit}

private theorem mem_visits_present {value : Value} {next : Value → Recorded Value}
    (member : visit ∈ (place.recordPresent required value next).visits) :
    value.stripped ≠ .null ∧ value.stripped ≠ .absent ∧ visit ∈ (next value.stripped).visits := by
  unfold recordPresent at member
  cases held : value.stripped with
  | null | absent =>
      rw [held] at member
      cases member
  | _ =>
      rw [held] at member
      exact ⟨nofun, nofun, member⟩

private theorem mem_visits_object {value : Value} {object : Value → Recorded Value}
    (member : visit ∈ (place.recordObject object required value).visits) :
    value.kind ≠ .sequence ∧ visit ∈ (object value).visits := by
  unfold recordObject at member
  cases value with
  | sequence items => cases member
  | _ => exact ⟨nofun, member⟩

private theorem mem_visits_items {complete : Value → Recorded Value} {start : Nat}
    {items : List Value} (member : visit ∈ (recordItems complete start items).visits) :
    ∃ index element inner, items[index]? = some element ∧ inner ∈ (complete element).visits ∧
      visit = inner.under [.index (start + index)] := by
  induction items generalizing start with
  | nil => cases member
  | cons item rest ih =>
      rcases Recorded.mem_visits_andThen member with ofFirst | ⟨_, ofRest⟩
      · obtain ⟨inner, innerMember, same⟩ := List.mem_map.mp ofFirst
        exact ⟨0, item, inner, rfl, innerMember, same.symm⟩
      · obtain ⟨index, element, inner, atIndex, innerMember, same⟩ := ih ofRest
        refine ⟨index + 1, element, inner, atIndex, innerMember, ?_⟩
        rw [same, Nat.add_assoc, Nat.add_comm 1 index]

private theorem mem_visits_record {object : Value → Recorded Value} {shape : Shape} {value : Value}
    (member : visit ∈ (place.record object shape value).visits) :
    ∃ indices held inner, shape.ObjectIn value indices held ∧ inner ∈ (object held).visits ∧
      visit = inner.under (indices.map .index) := by
  induction shape generalizing value visit with
  | scalar leaf required =>
      obtain ⟨_, _, ofStill⟩ := mem_visits_present member
      cases ofStill
  | object id required =>
      obtain ⟨notNull, notAbsent, ofObject⟩ := mem_visits_present member
      obtain ⟨noList, ofHeld⟩ := mem_visits_object ofObject
      have isObject : value.stripped.IsObject :=
        ⟨Value.kind_stripped_ne_optional notAbsent, notNull, noList⟩
      exact ⟨[], value.stripped, visit, .object isObject, ofHeld, rfl⟩
  | list item required ih =>
      obtain ⟨_, _, ofList⟩ := mem_visits_present member
      cases itemsAre : value.stripped with
      | sequence items =>
          rw [itemsAre] at ofList
          obtain ⟨index, element, next, atIndex, nextMember, rfl⟩ := mem_visits_items ofList
          obtain ⟨indices, held, inner, inside, innerMember, rfl⟩ := ih nextMember
          refine ⟨index :: indices, held, inner, .item itemsAre atIndex inside, innerMember, ?_⟩
          rw [Visit.under_under, Nat.zero_add]
          rfl
      | _ =>
          rw [itemsAre] at ofList
          cases ofList

end FieldPlace

private theorem ObjectField.mem_visits_record {field : ObjectField} {level : ReportLevel}
    {planned : PlannedField} {context : Context} {arguments : Record} {place : FieldPlace}
    {object : Value → Recorded Value} {visit : Visit}
    (member : visit ∈ (field.record level planned context arguments place object).visits) :
    visit = ⟨[], planned, field, context.withArguments arguments⟩ ∨
      ∃ value indices held inner,
        (field.resolution.source.evaluate level (context.withArguments arguments)).result =
          .ok value ∧ field.resolution.shape.ObjectIn value indices held ∧
        inner ∈ (object held).visits ∧ visit = inner.under (indices.map .index) := by
  rcases List.mem_cons.mp member with isOwn | below
  · exact .inl isOwn
  · unfold Visit.evaluated at below
    cases found : (field.resolution.source.evaluate level
        (context.withArguments arguments)).result with
    | error error =>
        rw [found] at below
        cases below
    | ok value =>
        rw [found] at below
        obtain ⟨indices, held, inner, objectIn, innerMember, same⟩ :=
          FieldPlace.mem_visits_record below
        exact .inr ⟨value, indices, held, inner, rfl, objectIn, innerMember, same⟩

namespace Schema

variable {schema : Schema} {level : ReportLevel} {environment : Record}

private theorem reaches_here {object : ResponseObject} {planned : PlannedField} {name : String}
    {arguments : Record} {field : ObjectField} (member : planned ∈ object.fields)
    (asked : planned.asked? = some (name, arguments))
    (fieldIs : object.type.fields.find? name = some field) :
    schema.Reaches level environment object
      (Visit.under [.key planned.key]
        ⟨[], planned, field, (object.context environment).withArguments arguments⟩) :=
  ⟨[], object, name, arguments, .here object, rfl, member, asked, fieldIs, rfl⟩

mutual

/-- What is evaluated for a planned field of an object is evaluated for that or for an
object inside of it. -/
theorem reaches_of_mem_field (object : ResponseObject) : (planned : PlannedField) →
    planned ∈ object.fields → ∀ visit ∈ (schema.recordField level object.type
      (object.context environment) planned).visits,
        schema.Reaches level environment object (visit.under [.key planned.key])
  | .typename key position, _, visit, member => by
      rw [recordField] at member
      cases member
  | .leaf key position name arguments, isField, visit, member => by
      rw [recordField] at member
      cases fieldIs : object.type.fields.find? name with
      | none =>
          rw [fieldIs] at member
          cases member
      | some field =>
          rw [fieldIs] at member
          rcases ObjectField.mem_visits_record member with rfl | below
          · exact reaches_here isField rfl fieldIs
          · obtain ⟨_, _, _, _, _, _, innerMember, _⟩ := below
            cases innerMember
  | .composite key position name arguments id fields, isField, visit, member => by
      rw [recordField] at member
      cases fieldIs : object.type.fields.find? name with
      | none =>
          rw [fieldIs] at member
          cases member
      | some field =>
          rw [fieldIs] at member
          rcases ObjectField.mem_visits_record member with rfl | below
          · exact reaches_here isField rfl fieldIs
          · obtain ⟨value, indices, held, inner, found, objectIn, innerMember, rfl⟩ := below
            cases typeIs : schema.object? id with
            | none =>
                rw [typeIs] at innerMember
                cases innerMember
            | some type =>
                rw [typeIs] at innerMember
                obtain ⟨above, target, targetName, targetArguments, encloses, ofObject⟩ :=
                  reaches_of_mem_fields ⟨type, fields, held, object.values⟩ fields
                    (List.Subset.refl fields) inner innerMember
                refine ⟨_, target, targetName, targetArguments,
                  .inner isField fieldIs found objectIn typeIs encloses, ?_⟩
                rw [Visit.under_under]
                exact ofObject.under (.key key :: indices.map .index)

theorem reaches_of_mem_fields (object : ResponseObject) : (fields : List PlannedField) →
    fields ⊆ object.fields → ∀ visit ∈ (schema.recordFields level object.type
      (object.context environment) fields).visits,
        schema.Reaches level environment object visit
  | [], _, visit, member => by
      rw [recordFields] at member
      cases member
  | planned :: rest, areFields, visit, member => by
      rw [recordFields] at member
      obtain ⟨isField, restAreFields⟩ := List.cons_subset.mp areFields
      rcases Recorded.mem_visits_andThen member with ofFirst | ⟨_, ofRest⟩
      · obtain ⟨own, ownMember, rfl⟩ := List.mem_map.mp ofFirst
        exact reaches_of_mem_field object planned isField own ownMember
      · exact reaches_of_mem_fields object rest restAreFields visit ofRest

end

private theorem reaches_of_mem_record {plan : Plan} {root : Value} {visit : Visit}
    (member : visit ∈ (schema.record level plan (.root root environment)).visits) :
    ∃ type, schema.object? plan.object = some type ∧
      schema.Reaches level environment ⟨type, plan.fields, root, []⟩ visit := by
  unfold record at member
  cases typeIs : schema.object? plan.object with
  | none =>
      rw [typeIs] at member
      cases member
  | some type =>
      rw [typeIs] at member
      exact ⟨type, rfl, reaches_of_mem_fields ⟨type, plan.fields, root, []⟩ plan.fields
        (List.Subset.refl _) visit member⟩

end Schema

/-! ### The levels of a context -/

/-- Whether so many levels up a context has what an object is made of, and nothing else but
the environment, and whether lookups read it there. -/
structure Context.MirrorsAt (environment : Record) (depth : Nat) (object : ResponseObject)
    (context : Context) : Prop where
  ancestor : ∃ ancestor, context.ancestor? depth = some ancestor ∧
    ancestor.current = object.value ∧ ancestor.environment = environment ∧
    ancestor.elements = [] ∧
    (0 < depth → ancestor = object.context environment ∧ ancestor.arguments = [])
  reads : ∀ (lookup : Lookup) (elements : List Value), lookup.root = .ancestor depth →
    lookup.find context elements = lookup.findIn object.value

namespace ResponseObject

variable {environment : Record} {object outer : ResponseObject} {depth : Nat}

private theorem ancestor?_context (object : ResponseObject) (depth : Nat) :
    (object.context environment).ancestor? depth =
      match object.values.drop depth with
      | [] => none
      | held :: rest => some (.nested environment held rest) :=
  Context.ancestor?_nested depth

/-- So many levels up, the context of a field mirrors the object there. -/
theorem mirrorsAt (isOuter : object.values.drop depth = outer.values) (arguments : Record) :
    ((object.context environment).withArguments arguments).MirrorsAt environment depth
      outer := by
  have atLevel : ∃ ancestor,
      ((object.context environment).withArguments arguments).ancestor? depth = some ancestor ∧
      ancestor.current = outer.value ∧ ancestor.environment = environment ∧
      ancestor.elements = [] ∧
      (0 < depth → ancestor = outer.context environment ∧ ancestor.arguments = []) := by
    cases depth with
    | zero =>
        have sameValue : object.value = outer.value := (List.cons.inj isOuter).1
        refine ⟨_, rfl, ?_, Context.environment_nested, Context.elements_nested,
          fun impossible => absurd impossible (Nat.lt_irrefl 0)⟩
        rw [← sameValue]
        exact Context.current_nested
    | succ depth =>
        refine ⟨outer.context environment, ?_, Context.current_nested,
          Context.environment_nested, Context.elements_nested,
          fun _ => ⟨rfl, Context.arguments_nested⟩⟩
        rw [Context.ancestor?_withArguments, ancestor?_context, isOuter]
        rfl
  refine ⟨atLevel, fun lookup elements isAncestor => ?_⟩
  obtain ⟨ancestor, ancestorIs, currentIs, _⟩ := atLevel
  rw [Lookup.find_ancestor isAncestor, ancestorIs, Option.map_some, currentIs]

private theorem ancestor?_eq_none (beyond : object.values.length ≤ depth) (arguments : Record) :
    ((object.context environment).withArguments arguments).ancestor? depth = none := by
  cases depth with
  | zero => exact absurd beyond (Nat.not_succ_le_zero _)
  | succ depth =>
      rw [Context.ancestor?_withArguments, ancestor?_context,
        List.drop_eq_nil_of_le beyond]

end ResponseObject

/-- Whether a context mirrors the objects on the path from the outermost one to an object: it
has a level for each of them, and no further ones. -/
structure Context.Mirrors (schema : Schema) (level : ReportLevel) (environment : Record)
    (outermost : ResponseObject) (above : List PathStep) (object : ResponseObject)
    (context : Context) : Prop where
  levels : ∀ depth ≤ levelsOn above, ∃ upper lower middle, above = upper ++ lower ∧
    levelsOn lower = depth ∧ schema.Encloses level environment outermost upper middle ∧
    schema.Encloses level environment middle lower object ∧
    context.MirrorsAt environment depth middle ∧
    (depth < levelsOn above → middle.value.IsObject) ∧
    (depth = levelsOn above → middle.value = outermost.value)
  beyond : ∀ depth, levelsOn above < depth → context.ancestor? depth = none ∧
    ∀ (lookup : Lookup) (elements : List Value), lookup.root = .ancestor depth →
      lookup.find context elements = .ok none

/-- The context of a field mirrors the objects around it. -/
theorem Schema.Encloses.mirrors {schema : Schema} {level : ReportLevel} {environment : Record}
    {outermost object : ResponseObject} {above : List PathStep}
    (encloses : schema.Encloses level environment outermost above object)
    (isOutermost : outermost.outer = []) (arguments : Record) :
    ((object.context environment).withArguments arguments).Mirrors schema level environment
      outermost above object := by
  constructor
  · intro depth within
    obtain ⟨upper, lower, middle, rfl, isDepth, enclosesMiddle, enclosesObject⟩ :=
      encloses.exists_at_level within
    have isOuter : object.values.drop depth = middle.values := by
      rw [← isDepth]
      exact enclosesObject.drop_values
    rw [levelsOn_append, isDepth]
    refine ⟨upper, lower, middle, rfl, isDepth, enclosesMiddle, enclosesObject,
      ResponseObject.mirrorsAt isOuter arguments, ?_, ?_⟩
    · intro further
      rcases enclosesMiddle.isObject_or_here with isObject | ⟨noLevel, _⟩
      · exact isObject
      · omega
    · intro isLast
      have noLevel : levelsOn upper = 0 := by omega
      have sameValues := enclosesMiddle.drop_values
      rw [noLevel] at sameValues
      exact (List.cons.inj sameValues).1
  · intro depth further
    have lastLevel := encloses.drop_values
    have length : object.values.length = levelsOn above + 1 := by
      have dropped := congrArg List.length lastLevel
      rw [List.length_drop, ResponseObject.values, ResponseObject.values, isOutermost] at dropped
      rw [ResponseObject.values]
      simp only [List.length_cons, List.length_nil] at dropped ⊢
      omega
    have noAncestor : ((object.context environment).withArguments arguments).ancestor? depth =
        none := by
      apply ResponseObject.ancestor?_eq_none
      rw [length]
      exact further
    refine ⟨noAncestor, fun lookup elements isAncestor => ?_⟩
    rw [Lookup.find_ancestor isAncestor, noAncestor]
    rfl

namespace Engine

def environmentOf (engine : Engine) (request : Request) : Record :=
  engine.settings.environment.putAll request.environment

/-- Every source that is evaluated for a request is that of a field of an object of the
response.  It is evaluated in a context which mirrors the objects around the field, with
the arguments that are planned for it and the environment of the request, and what it
reports is all that is reported. -/
theorem record_mirrors (engine : Engine) (request : Request) :
    (engine.record request).1 = engine.execute request ∧
      (engine.execute request).reports =
        reportsOf engine.settings.level (engine.record request).2 ∧
      (∀ key, Entries.find? key (engine.environmentOf request) =
        (Entries.find? key request.environment.collapse).or
          (engine.settings.environment.find? key)) ∧
      ∀ visit ∈ (engine.record request).2, ∃ plan type above object name arguments,
        engine.prepare request = .ok plan ∧ engine.schema.object? plan.object = some type ∧
        engine.schema.Encloses engine.settings.level (engine.environmentOf request)
          ⟨type, plan.fields, request.root, []⟩ above object ∧
        visit.OfObject (engine.environmentOf request) above object name arguments ∧
        visit.context.arguments = arguments ∧
        visit.context.Mirrors engine.schema engine.settings.level
          (engine.environmentOf request) ⟨type, plan.fields, request.root, []⟩ above object := by
  obtain ⟨same, reports⟩ := engine.record_eq request
  refine ⟨same, reports, fun key => Entries.find?_putAll key _ _, fun visit member => ?_⟩
  unfold record at member
  cases prepared : engine.prepare request with
  | error refusal =>
      rw [prepared] at member
      cases member
  | ok plan =>
      rw [prepared] at member
      obtain ⟨type, typeIs, above, object, name, arguments, encloses, ofObject⟩ :=
        Schema.reaches_of_mem_record member
      refine ⟨plan, type, above, object, name, arguments, rfl, typeIs, encloses, ofObject, ?_⟩
      rw [ofObject.context]
      exact ⟨rfl, encloses.mirrors rfl arguments⟩

end Engine

/-! ### The title of a table, read from its cells -/

def Document.nestedField? :
    Document → Option (Located String × Located String × Int × Position × Located String)
  | ⟨[⟨none, .query, [], [.field ⟨none, outer, [⟨argument, ⟨.integer number, position⟩⟩], []⟩
      [.field ⟨none, inner, [], []⟩ []]]⟩], ⟨[], _⟩⟩ =>
        some (outer, argument, number, position, inner)
  | _ => none

private theorem Document.eq_of_nestedField? {document : Document}
    {outer argument inner : Located String}
    {number : Int} {position : Position}
    (nested : document.nestedField? = some (outer, argument, number, position, inner)) :
    document = ⟨[⟨none, .query, [],
      [.field ⟨none, outer, [⟨argument, ⟨.integer number, position⟩⟩], []⟩
        [.field ⟨none, inner, [], []⟩ []]]⟩], .empty⟩ := by
  unfold nestedField? at nested
  split at nested
  · cases nested
    rfl
  · cases nested

def Engine.ofTable : Engine := ⟨.ofTable, { Settings.standard with environment := [("a", .null)] }⟩

def Value.ofTable : Value :=
  .record [("rows", .sequence [.sequence [.null, .null]]), ("title", .string "Stock")]

def Request.ofTable : Request :=
  ⟨"{rows(width: 2){title}}", none, [], .ofTable, [("a", .int 1)]⟩

def PlannedField.ofTitle : PlannedField := .leaf "title" ⟨1, 17⟩ "title" []

def Plan.ofTable : Plan :=
  ⟨0, [.composite "rows" ⟨1, 2⟩ "rows" [("width", .int 2)] 1 [.ofTitle]]⟩

def Visit.ofTitle : Visit :=
  ⟨[.key "rows", .index 0, .index 1, .key "title"], .ofTitle, .ofTitle,
    (Context.root .ofTable [("a", .int 1)]).child (.int 2)⟩

namespace Engine

private theorem parse_ofTable : Document.parse "{rows(width: 2){title}}" =
    .ok ⟨[⟨none, .query, [], [.field
      ⟨none, ⟨"rows", ⟨1, 2⟩⟩, [⟨⟨"width", ⟨1, 7⟩⟩, ⟨.integer 2, ⟨1, 14⟩⟩⟩], []⟩
        [.field ⟨none, ⟨"title", ⟨1, 17⟩⟩, [], []⟩ []]]⟩], .empty⟩ := by
  have nested : (Document.parse "{rows(width: 2){title}}").toOption.bind
      Document.nestedField? = some (⟨"rows", ⟨1, 2⟩⟩, ⟨"width", ⟨1, 7⟩⟩, 2, ⟨1, 14⟩,
        ⟨"title", ⟨1, 17⟩⟩) := by decide +kernel
  cases parsed : Document.parse "{rows(width: 2){title}}" with
  | error fault =>
      rw [parsed] at nested
      cases nested
  | ok document =>
      rw [parsed] at nested
      rw [Document.eq_of_nestedField? nested]

private theorem prepare_ofTable : Engine.ofTable.prepare .ofTable = .ok .ofTable := by
  refine bind_eq_ok.mpr ⟨_, mapError_eq_ok.mpr parse_ofTable, ?_⟩
  refine bind_eq_ok.mpr ⟨_, rfl, bind_eq_ok.mpr ⟨(), mapError_eq_ok.mpr ?_, ?_⟩⟩
  · exact Document.walk_eq_ok_iff.mpr (Document.valid_field_cons.mpr
      ⟨rfl, Document.valid_field_cons.mpr ⟨rfl, Document.valid_nil, Document.valid_nil⟩,
        Document.valid_nil⟩)
  · refine bind_eq_ok.mpr ⟨⟨[], []⟩, rfl, mapError_eq_ok.mpr ?_⟩
    with_unfolding_all rfl

private theorem ofTitle_mem_record : Visit.ofTitle ∈ (Engine.ofTable.record .ofTable).2 := by
  unfold record
  rw [prepare_ofTable]
  exact List.mem_cons_of_mem _ (List.mem_cons_of_mem _ (List.mem_cons_self ..))

/-- A cell has one level around it, that of the table; there is none for the row. -/
theorem record_mirrors_ofTable :
    Visit.ofTitle ∈ (Engine.ofTable.record .ofTable).2 ∧
      Visit.ofTitle.context.ancestor? 2 = none ∧
      ∃ middle : ResponseObject, middle.value = .ofTable ∧
        Visit.ofTitle.context.MirrorsAt [("a", .int 1)] 1 middle := by
  obtain ⟨_, _, _, mirrors⟩ := Engine.ofTable.record_mirrors .ofTable
  obtain ⟨plan, type, above, object, name, arguments, _, _, _, ofObject, _, mirrored⟩ :=
    mirrors .ofTitle ofTitle_mem_record
  have path : [PathStep.key "rows", .index 0, .index 1] ++ [.key "title"] =
      above ++ [.key "title"] := ofObject.path
  rw [← List.append_cancel_right path] at mirrored
  obtain ⟨_, _, middle, _, _, _, _, mirrorsAt, _, isRoot⟩ :=
    mirrored.levels 1 (Nat.le_refl 1)
  exact ⟨ofTitle_mem_record, (mirrored.beyond 2 (Nat.lt_succ_self 1)).1, middle, isRoot rfl,
    mirrorsAt⟩

end Engine

end StagedResolver
