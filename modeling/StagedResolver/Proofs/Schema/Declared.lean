/-
Compiled schemas are as they are declared.

Objects and fields are compiled one by one, under their names and in their order.  A shape
has the lists of its type and rules out null where the type does; at the bottom it has the
scalar that the type names, or else the position of the object of that name.  Arguments are
of scalars, and no part of a resolver reads an argument that is not declared.
-/
import StagedResolver.Proofs.Expression.Footprint
import StagedResolver.Proofs.Schema.Compiled

namespace StagedResolver

/-- Whether a shape is nested as a type is, and leads to what the type names: to a scalar,
or, when no scalar has that name, to an object type that has it. -/
inductive Schema.Shapes (schema : Schema) : TypeReference → Shape → Prop where
  | scalar (leaf : Scalar) (required : Bool) :
      Shapes schema (.named leaf.name required) (.scalar leaf required)
  | object {name : String} {id : ObjectIndex} {object : ObjectType} (required : Bool)
      (noScalar : ∀ leaf : Scalar, leaf.name ≠ name)
      (objectIs : schema.object? id = some object) (named : object.name = name) :
      Shapes schema (.named name required) (.object id required)
  | list {item : TypeReference} {shape : Shape} (required : Bool)
      (inside : Shapes schema item shape) :
      Shapes schema (.list item required) (.list shape required)

theorem Schema.Shapes.target {schema : Schema} {type : TypeReference} {shape : Shape}
    {id : ObjectIndex} (shapes : schema.Shapes type shape) (ofObject : shape.object? = some id) :
    ∃ object, schema.object? id = some object ∧ object.name = type.innermost := by
  induction shapes with
  | scalar leaf required => cases ofObject
  | object required noScalar objectIs named =>
      cases ofObject
      exact ⟨_, objectIs, named⟩
  | list required inside ih => exact ih ofObject

namespace Scalar

private theorem ofName?_name (leaf : Scalar) : ofName? leaf.name = some leaf := by
  cases leaf <;> rfl

private theorem ofName?_eq_some {name : String} {leaf : Scalar} :
    ofName? name = some leaf ↔ leaf.name = name := by
  constructor
  · intro found
    have member : (name, leaf) ∈ named := Entries.mem_of_find? found
    simp only [named, List.mem_cons, Prod.mk.injEq, List.not_mem_nil, or_false] at member
    rcases member with ⟨rfl, rfl⟩ | ⟨rfl, rfl⟩ | ⟨rfl, rfl⟩ | ⟨rfl, rfl⟩ | ⟨rfl, rfl⟩ | ⟨rfl, rfl⟩
    all_goals rfl
  · rintro rfl
    exact ofName?_name leaf

end Scalar

namespace SchemaDeclaration

variable {declaration : SchemaDeclaration} {schema : Schema}

private theorem exists_object?_of_indexOf? (compiled : declaration.compile = .ok schema)
    {name : String}
    {id : ObjectIndex} (isIndex : declaration.indexOf? name = some id) :
    ∃ object, schema.object? id = some object ∧ object.name = name := by
  obtain ⟨declared, atPlace, _⟩ := Entries.position?_eq_some isIndex
  have made := rel_object?_of_compile compiled id
  rw [atPlace] at made
  generalize schema.object? id = found at made ⊢
  cases made with
  | some objectMade => exact ⟨_, rfl, (objectType_eq_ok.mp objectMade).1⟩

private theorem shapes_of_shape (compiled : declaration.compile = .ok schema) {place : SchemaPlace}
    {type : TypeReference} {shape : Shape} (shapeIs : declaration.shape place type = .ok shape) :
    schema.Shapes type shape := by
  induction type generalizing shape with
  | named name required =>
      rw [SchemaDeclaration.shape] at shapeIs
      split at shapeIs
      · rename_i leaf isScalar
        cases shapeIs
        rw [← Scalar.ofName?_eq_some.mp isScalar]
        exact .scalar leaf required
      · rename_i noScalar
        split at shapeIs
        · rename_i id isIndex
          cases shapeIs
          obtain ⟨object, objectIs, named⟩ := exists_object?_of_indexOf? compiled isIndex
          refine .object required (fun leaf isNamed => ?_) objectIs named
          rw [Scalar.ofName?_eq_some.mpr isNamed] at noScalar
          cases noScalar
        · cases shapeIs
  | list item required ih =>
      obtain ⟨inner, innerIs, same⟩ := bind_eq_ok.mp shapeIs
      cases same
      exact .list required (ih innerIs)

end SchemaDeclaration

/-- Whether an argument is as it is declared: of the type that is written, which is one of
scalars, with the same fallback. -/
structure ArgumentDeclaration.Describes (declared : ArgumentDeclaration)
    (argument : FieldArgument) : Prop where
  type : TypeReference.parse? declared.type = some argument.type
  ofScalar : ∃ leaf : Scalar, leaf.name = argument.type.innermost
  fallback : argument.fallback = declared.fallback

private theorem ArgumentDeclaration.describes_of_ok {declared : ArgumentDeclaration}
    {place : SchemaPlace} {argument : FieldArgument}
    (compiled : declared.compile place = .ok argument) : declared.Describes argument := by
  obtain ⟨type, typeRead, compiled⟩ := bind_eq_ok.mp compiled
  split at compiled
  · rename_i leaf isScalar
    cases compiled
    exact ⟨readType_eq_ok.mp typeRead, ⟨leaf, Scalar.ofName?_eq_some.mp isScalar⟩, rfl⟩
  · cases compiled

/-- A lookup in the arguments that passes its check starts with a declared one, unless it
has no segments. -/
theorem exists_argument_of_checkRead {place : SchemaPlace} {arguments : OrderedMap FieldArgument}
    {lookup : Lookup} (checked : checkRead place arguments lookup = .ok ())
    (inArguments : lookup.root = .arguments) (notEmpty : lookup.segments ≠ []) :
    ∃ name rest, lookup.segments = .key name :: rest ∧ arguments.has name = true := by
  rw [checkRead] at checked
  split at checked
  · rename_i first rest _ segments
    rw [segments]
    cases first with
    | index position => cases checked
    | key name =>
        refine ⟨name, rest, rfl, ?_⟩
        rw [OrderedMap.has, Entries.has, ← OrderedMap.find?]
        cases found : arguments.find? name with
        | none =>
            simp only [found] at checked
            cases checked
        | some argument => rfl
  · rename_i noRead
    cases segments : lookup.segments with
    | nil => exact absurd segments notEmpty
    | cons first rest => exact absurd segments (noRead first rest inArguments)

private theorem Provision.checkReads_of_compile {provision : Provision} {place : SchemaPlace}
    {name : String} {type : TypeReference} {shape : Shape} {arguments : OrderedMap FieldArgument}
    {expression : Expression}
    (compiled : provision.compile place name type shape arguments = .ok (.computed expression)) :
    checkReads place arguments expression = .ok () := by
  cases provision with
  | passthrough => cases compiled
  | constant value =>
      obtain ⟨_, _, impossible⟩ := bind_eq_ok.mp compiled
      cases impossible
  | resolver draft output =>
      obtain ⟨_, _, compiled⟩ := bind_eq_ok.mp compiled
      split at compiled
      · cases compiled
      · obtain ⟨_, checked, same⟩ := bind_eq_ok.mp compiled
        cases same
        exact checked

/-! ### Fields and objects -/

/-- Whether a field is as it is declared in a schema. -/
structure FieldDeclaration.Describes (declared : FieldDeclaration) (schema : Schema)
    (field : ObjectField) : Prop where
  type : TypeReference.parse? declared.type = some field.type
  shape : schema.Shapes field.type field.resolution.shape
  target : ∀ id, field.resolution.shape.object? = some id →
    ∃ object, schema.object? id = some object ∧ object.name = field.type.innermost
  arguments : List.Forall₂ (fun entry argument =>
    argument.1 = entry.1 ∧ entry.2.Describes argument.2)
      declared.arguments.entries field.arguments.entries
  /-- Every part of its resolver that reads arguments names one that is declared. -/
  reads : ∀ expression lookup, field.resolution.source = .computed expression →
    (Expression.read lookup).IsPartOf expression → lookup.root = .arguments →
      lookup.segments ≠ [] → ∃ name rest, lookup.segments = .key name :: rest ∧
        declared.arguments.has name = true

/-- Whether an object type is as it is declared in a schema, field by field. -/
structure ObjectDeclaration.Describes (declared : ObjectDeclaration) (schema : Schema)
    (name : String) (object : ObjectType) : Prop where
  name : object.name = name
  fields : List.Forall₂ (fun entry field => field.1 = entry.1 ∧ field.2.name = entry.1 ∧
    entry.2.Describes schema field.2) declared.entries object.fields.entries

namespace SchemaDeclaration

variable {declaration : SchemaDeclaration} {schema : Schema}

/-- The arguments that a compiled field reads are declared. -/
theorem has_of_isPartOf {object name : String} {declared : FieldDeclaration} {field : ObjectField}
    (made : declaration.objectField object name declared = .ok field)
    {expression : Expression} {lookup : Lookup}
    (computed : field.resolution.source = .computed expression)
    (isPart : (Expression.read lookup).IsPartOf expression)
    (inArguments : lookup.root = .arguments) (notEmpty : lookup.segments ≠ []) :
    ∃ argument rest, lookup.segments = .key argument :: rest ∧
      field.arguments.has argument = true := by
  obtain ⟨_, _, _, _, sourceIs⟩ := objectField_eq_ok.mp made
  rw [computed] at sourceIs
  have checked := forM_eq_ok.mp (Provision.checkReads_of_compile sourceIs) lookup
    (Expression.mem_lookups_iff.mpr isPart)
  exact exists_argument_of_checkRead checked inArguments notEmpty

private theorem describes_of_objectField (compiled : declaration.compile = .ok schema)
    {object name : String} {declared : FieldDeclaration} {field : ObjectField}
    (made : declaration.objectField object name declared = .ok field) :
    field.name = name ∧ declared.Describes schema field := by
  obtain ⟨sameName, typeRead, shapeIs, arguments, _⟩ := objectField_eq_ok.mp made
  have shapes : schema.Shapes field.type field.resolution.shape :=
    shapes_of_shape compiled shapeIs
  have sameKeys : field.arguments.entries.keys = declared.arguments.entries.keys :=
    Entries.keys_of_forall₂ arguments
  refine ⟨sameName, readType_eq_ok.mp typeRead, shapes, fun id => shapes.target, ?_, ?_⟩
  · exact arguments.imp fun entry argument argumentMade =>
      ⟨argumentMade.1, ArgumentDeclaration.describes_of_ok argumentMade.2⟩
  · intro expression lookup computed isPart inArguments notEmpty
    obtain ⟨argument, rest, segments, isDeclared⟩ :=
      has_of_isPartOf made computed isPart inArguments notEmpty
    refine ⟨argument, rest, segments, ?_⟩
    rw [OrderedMap.has, Entries.has_iff_mem_keys] at isDeclared ⊢
    rw [← sameKeys]
    exact isDeclared

/-- A compiled schema has the declared objects with the declared fields, in order, and its
query type is the object of the declared name. -/
theorem describes_of_compile (compiled : declaration.compile = .ok schema) :
    (∃ query, schema.object? schema.query = some query ∧ query.name = declaration.query) ∧
      List.Forall₂ (fun entry object => entry.2.Describes schema entry.1 object)
        declaration.objects.entries schema.objects := by
  obtain ⟨queryIs, objects⟩ := compile_eq_ok.mp compiled
  refine ⟨exists_object?_of_indexOf? compiled queryIs, objects.imp fun entry object made => ?_⟩
  obtain ⟨sameName, fields⟩ := objectType_eq_ok.mp made
  refine ⟨sameName, fields.imp fun declared field fieldMade => ?_⟩
  obtain ⟨sameKey, fieldMade⟩ := fieldMade
  exact ⟨sameKey, describes_of_objectField compiled fieldMade⟩

end SchemaDeclaration

/-! ### A table, declared and compiled -/

def FieldDeclaration.ofRows : FieldDeclaration :=
  ((FieldDeclaration.ofType "[[Cell!]]!").argument "width" ⟨"Int!", none⟩).provide
    (.resolver (.map (.read .current [.key "rows"] .any) 0
      (.map (.read (.binding 0) [] .any) 1 (.read .arguments [.key "width"] .int))) .any)

def FieldDeclaration.ofTitle : FieldDeclaration :=
  (FieldDeclaration.ofType "String").provide
    (.resolver (.read (.ancestor 1) [.key "title"] .string) .string)

namespace SchemaDeclaration

def ofTable : SchemaDeclaration :=
  ⟨"Query", .ofEntries [("Query", .ofEntries [("rows", .ofRows)]),
    ("Cell", .ofEntries [("title", .ofTitle)])]⟩

end SchemaDeclaration

def Expression.ofRows : Expression :=
  .map (.read ⟨.current, [.key "rows"], .any⟩)
    (.map (.read ⟨.element 0, [], .any⟩) (.read ⟨.arguments, [.key "width"], .int⟩))

def Shape.ofRows : Shape := .list (.list (.object 1 true) false) true

def ObjectField.ofRows : ObjectField :=
  ⟨"rows", .list (.list (.named "Cell" true) false) true,
    .ofEntries [("width", ⟨.named "Int" true, none⟩)], ⟨.computed .ofRows, .ofRows⟩⟩

def ObjectField.ofTitle : ObjectField :=
  ⟨"title", .named "String" false, .empty,
    ⟨.computed (.read ⟨.ancestor 1, [.key "title"], .string⟩), .scalar .string false⟩⟩

def Schema.ofTable : Schema :=
  ⟨0, [⟨"Query", .ofEntries [("rows", .ofRows)]⟩, ⟨"Cell", .ofEntries [("title", .ofTitle)]⟩]⟩

namespace SchemaDeclaration

theorem compile_ofTable : ofTable.compile = .ok .ofTable := by
  have rows : TypeReference.parse? "[[Cell!]]!" =
      some (.list (.list (.named "Cell" true) false) true) := by decide +kernel
  have width : TypeReference.parse? "Int!" = some (.named "Int" true) := by decide +kernel
  have title : TypeReference.parse? "String" = some (.named "String" false) := by
    decide +kernel
  have widthMade (place : SchemaPlace) :
      ArgumentDeclaration.compile place ⟨"Int!", none⟩ = .ok ⟨.named "Int" true, none⟩ :=
    bind_eq_ok.mpr ⟨_, readType_eq_ok.mpr width, rfl⟩
  have rowsFit (place : SchemaPlace) (type : TypeReference) :
      fitOutput place type .ofRows .any = .ok () := by
    rw [Shape.ofRows, fitOutput]
    rfl
  have titleFits (place : SchemaPlace) (type : TypeReference) :
      fitOutput place type (.scalar .string false) .string = .ok () := by
    rw [fitOutput]
    rfl
  apply compile_eq_ok.mpr
  refine ⟨rfl, .cons (objectType_eq_ok.mpr ⟨rfl, .cons ⟨rfl, ?_⟩ .nil⟩)
    (.cons (objectType_eq_ok.mpr ⟨rfl, .cons ⟨rfl, ?_⟩ .nil⟩) .nil)⟩
  · apply objectField_eq_ok.mpr
    refine ⟨rfl, readType_eq_ok.mpr rows, rfl, .cons ⟨rfl, widthMade _⟩ .nil, ?_⟩
    exact bind_eq_ok.mpr ⟨(), rowsFit _ _, rfl⟩
  · apply objectField_eq_ok.mpr
    refine ⟨rfl, readType_eq_ok.mpr title, rfl, .nil, ?_⟩
    exact bind_eq_ok.mpr ⟨(), titleFits _ _, rfl⟩

theorem describes_of_compile_ofTable :
    ofTable.compile = .ok .ofTable ∧
      (∃ query, Schema.ofTable.object? 0 = some query ∧ query.name = "Query") ∧
      Schema.ofTable.Shapes (.list (.list (.named "Cell" true) false) true) .ofRows ∧
      (Expression.read ⟨.arguments, [.key "width"], .int⟩).IsPartOf .ofRows ∧
      FieldDeclaration.ofRows.arguments.has "width" = true := by
  have inside : (Expression.read ⟨.arguments, [.key "width"], .int⟩).IsPartOf .ofRows :=
    .transform (.transform .whole)
  obtain ⟨query, objects⟩ := describes_of_compile compile_ofTable
  cases objects with
  | cons first _ =>
      cases first.fields with
      | cons rows _ =>
          obtain ⟨_, _, describes⟩ := rows
          obtain ⟨name, rest, segments, isDeclared⟩ :=
            describes.reads .ofRows _ rfl inside rfl (List.cons_ne_nil _ _)
          cases segments
          exact ⟨compile_ofTable, query, describes.shape, inside, isDeclared⟩

end SchemaDeclaration

end StagedResolver
