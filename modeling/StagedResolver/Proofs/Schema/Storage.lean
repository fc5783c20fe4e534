/-
Schemas are read back from their portable documents.

Objects, fields and arguments keep their order, since a document keeps the order of its
members and a table the order of its entries.
-/
import StagedResolver.Proofs.Expression.Storage
import StagedResolver.Proofs.Json.Reading
import StagedResolver.Schema.Portable

namespace StagedResolver

theorem Scalar.ofPortable?_toPortable (scalar : Scalar) :
    ofPortable? scalar.toPortable = some scalar := by
  cases scalar <;> rfl

namespace TypeReference

theorem ofPortable?_toPortable (type : TypeReference) :
    ofPortable? type.toPortable = some type := by
  induction type with
  | named name required => rfl
  | list item required ih =>
      show ofParts? (some ((ofPortable? item.toPortable).map TypeReference.list))
        (some (.bool required)) = _
      rw [ih]
      rfl

theorem isNarrow_toPortable (type : TypeReference) :
    type.toPortable.AllScalars Json.IsNarrow := by
  induction type with
  | named name required =>
      rw [toPortable, Json.allScalars_object]
      simp only [List.forall_mem_cons, Json.allScalars_tagged]
      exact ⟨Json.allScalars_string name, Json.allScalars_bool.mpr trivial,
        List.forall_mem_nil _⟩
  | list item required ih =>
      rw [toPortable, Json.allScalars_object]
      simp only [List.forall_mem_cons, Json.allScalars_tagged]
      exact ⟨ih, Json.allScalars_bool.mpr trivial, List.forall_mem_nil _⟩

end TypeReference

namespace Shape

def Storable (shape : Shape) : Prop :=
  ∀ id, shape.object? = some id → id < UInt32.size

theorem ofPortable?_toPortable {shape : Shape} (storable : shape.Storable) :
    ofPortable? shape.toPortable = some shape := by
  induction shape with
  | scalar leaf required =>
      show ofParts? (some ((Scalar.ofPortable? leaf.toPortable).map Shape.scalar))
        (some (.bool required)) = _
      rw [Scalar.ofPortable?_toPortable]
      rfl
  | object id required =>
      show ofParts? (some ((Json.natBelow? UInt32.size (.integer id)).map Shape.object))
        (some (.bool required)) = _
      rw [Json.natBelow?_natCast (storable id rfl)]
      rfl
  | list item required ih =>
      show ofParts? (some ((ofPortable? item.toPortable).map Shape.list))
        (some (.bool required)) = _
      rw [ih storable]
      rfl

theorem isNarrow_toPortable {shape : Shape} (storable : shape.Storable) :
    shape.toPortable.AllScalars Json.IsNarrow := by
  have grouped {kind : Json} (required : Bool) (narrow : kind.AllScalars Json.IsNarrow) :
      (toPortable.group kind required).AllScalars Json.IsNarrow := by
    rw [toPortable.group, Json.allScalars_object]
    simp only [List.forall_mem_cons]
    exact ⟨narrow, Json.allScalars_bool.mpr trivial, List.forall_mem_nil _⟩
  induction shape with
  | scalar leaf required =>
      exact grouped required (Json.allScalars_tagged.mpr (Json.allScalars_string leaf.name))
  | object id required =>
      apply grouped required
      rw [Json.allScalars_tagged, Json.allScalars_integer]
      exact Json.isNarrow_of_lt_uint32Size (storable id rfl)
  | list item required ih =>
      exact grouped required (Json.allScalars_tagged.mpr (ih storable))

end Shape

namespace Source

def Storable : Source → Prop
  | .passthrough _ => True
  | .constant value => value.WellFormed
  | .computed expression => expression.Storable

def isFinite : Source → Bool
  | .passthrough _ => true
  | .constant value => value.isFinite
  | .computed expression => expression.isFinite

theorem ofPortable?_toPortable {source : Source} (storable : source.Storable) :
    ofPortable? source.toPortable = if source.isFinite then some source else none := by
  cases source with
  | passthrough key => rfl
  | constant value =>
      show (Value.ofPortable? value.toPortable).map Source.constant = _
      rw [Value.ofPortable?_toPortable value storable, Option.map_if, isFinite]
  | computed expression =>
      show (Expression.ofPortable? expression.toPortable).map Source.computed = _
      rw [Expression.ofPortable?_toPortable storable, Option.map_if, isFinite]

theorem isNarrow_toPortable {source : Source} (storable : source.Storable) :
    source.toPortable.AllScalars Json.IsNarrow := by
  cases source with
  | passthrough key =>
      rw [toPortable, Json.allScalars_tagged, Json.allScalars_object, List.forall_mem_singleton]
      exact Json.allScalars_string key
  | constant value => exact Json.allScalars_tagged.mpr value.isNarrow_toPortable
  | computed expression =>
      exact Json.allScalars_tagged.mpr (Expression.isNarrow_toPortable storable)

end Source

namespace Resolution

structure Storable (resolution : Resolution) : Prop where
  source : resolution.source.Storable
  shape : resolution.shape.Storable

variable {resolution : Resolution}

theorem ofPortable?_toPortable (storable : resolution.Storable) :
    ofPortable? resolution.toPortable =
      if resolution.source.isFinite then some resolution else none := by
  show (do
    let source ← Source.ofPortable? resolution.source.toPortable
    let shape ← Shape.ofPortable? resolution.shape.toPortable
    return (⟨source, shape⟩ : Resolution)) = _
  rw [Source.ofPortable?_toPortable storable.source,
    Shape.ofPortable?_toPortable storable.shape, Json.bind_kept]
  rfl

theorem isNarrow_toPortable (storable : resolution.Storable) :
    resolution.toPortable.AllScalars Json.IsNarrow := by
  rw [toPortable, Json.allScalars_object]
  simp only [List.forall_mem_cons]
  exact ⟨Source.isNarrow_toPortable storable.source, Shape.isNarrow_toPortable storable.shape,
    List.forall_mem_nil _⟩

end Resolution

namespace OrderedMap

variable {α : Type} {item : α → Json} {table : OrderedMap α}

/-- A table is read back, in its order, when all that it holds is. -/
theorem ofPortable?_toPortable {item? : Json → Option α} {keeps : α → Bool}
    (each : ∀ entry ∈ table.entries,
      item? (item entry.2) = if keeps entry.2 then some entry.2 else none) :
    ofPortable? item? (table.toPortable item) =
      if table.entries.all fun entry => keeps entry.2 then some table else none := by
  have entries : (table.entries.map fun entry => (entry.1, item entry.2)).mapM (fun member => do
      let held ← item? member.2
      return (member.1, held)) =
        if table.entries.all fun entry => keeps entry.2 then some table.entries else none := by
    apply Json.mapM_map_of_each
    intro entry member
    show (item? (item entry.2) >>= fun held => some (entry.1, held)) = _
    rw [each entry member, Json.bind_kept]
  have same : OrderedMap.ofEntries table.entries = table :=
    eq_of_entries (Entries.DistinctKeys.collapse_eq table.distinct)
  show ((table.entries.map fun entry => (entry.1, item entry.2)).mapM _ >>= fun entries =>
    some (OrderedMap.ofEntries entries)) = _
  rw [entries, Json.bind_kept, same]

theorem isNarrow_toPortable
    (each : ∀ entry ∈ table.entries, (item entry.2).AllScalars Json.IsNarrow) :
    (table.toPortable item).AllScalars Json.IsNarrow := by
  rw [toPortable, Json.allScalars_object]
  intro member isMember
  obtain ⟨entry, entryMember, rfl⟩ := List.mem_map.mp isMember
  exact each entry entryMember

end OrderedMap

namespace FieldArgument

def Storable (argument : FieldArgument) : Prop :=
  ∀ value, argument.fallback = some value → value.WellFormed

def isFinite (argument : FieldArgument) : Bool :=
  argument.fallback.all Value.isFinite

private theorem fallbackOfPortable?_toPortable {value : Value} (wellFormed : value.WellFormed) :
    fallbackOfPortable? (some value.toPortable) =
      if value.isFinite then some (some value) else none := by
  have read : fallbackOfPortable? (some value.toPortable) =
      (Value.ofPortable? value.toPortable).map some := by
    have notNull := value.toPortable_ne_null
    generalize value.toPortable = document at notNull ⊢
    cases document with
    | null => exact absurd rfl notNull
    | _ => rfl
  rw [read, Value.ofPortable?_toPortable value wellFormed, Option.map_if]

theorem ofPortable?_toPortable {argument : FieldArgument} (storable : argument.Storable) :
    ofPortable? argument.toPortable = if argument.isFinite then some argument else none := by
  obtain ⟨type, fallback⟩ := argument
  cases fallback with
  | none =>
      show (TypeReference.ofPortable? type.toPortable >>= fun type =>
        some (FieldArgument.mk type none)) = _
      rw [TypeReference.ofPortable?_toPortable]
      rfl
  | some value =>
      show (do
        let type ← TypeReference.ofPortable? type.toPortable
        let fallback ← fallbackOfPortable? (some value.toPortable)
        return FieldArgument.mk type fallback) = _
      rw [TypeReference.ofPortable?_toPortable,
        fallbackOfPortable?_toPortable (storable value rfl)]
      simp only [Json.bind_kept]
      rfl

theorem isNarrow_toPortable (argument : FieldArgument) :
    argument.toPortable.AllScalars Json.IsNarrow := by
  obtain ⟨type, fallback⟩ := argument
  rw [toPortable, Json.allScalars_object]
  simp only [List.forall_mem_cons]
  refine ⟨type.isNarrow_toPortable, ?_, List.forall_mem_nil _⟩
  cases fallback with
  | none => exact Json.allScalars_null.mpr trivial
  | some value => exact value.isNarrow_toPortable

end FieldArgument

namespace ObjectField

structure Storable (field : ObjectField) : Prop where
  arguments : ∀ entry ∈ field.arguments.entries, entry.2.Storable
  resolution : field.resolution.Storable

def isFinite (field : ObjectField) : Bool :=
  (field.arguments.entries.all fun entry => entry.2.isFinite) && field.resolution.source.isFinite

variable {field : ObjectField}

theorem ofPortable?_toPortable (storable : field.Storable) :
    ofPortable? field.toPortable = if field.isFinite then some field else none := by
  have arguments : OrderedMap.ofPortable? FieldArgument.ofPortable?
      (field.arguments.toPortable FieldArgument.toPortable) =
        if field.arguments.entries.all fun entry => entry.2.isFinite
        then some field.arguments else none :=
    OrderedMap.ofPortable?_toPortable fun entry member =>
      FieldArgument.ofPortable?_toPortable (storable.arguments entry member)
  show (do
    let type ← TypeReference.ofPortable? field.type.toPortable
    let arguments ← OrderedMap.ofPortable? FieldArgument.ofPortable?
      (field.arguments.toPortable FieldArgument.toPortable)
    let resolution ← Resolution.ofPortable? field.resolution.toPortable
    return ObjectField.mk field.name type arguments resolution) = _
  rw [TypeReference.ofPortable?_toPortable, arguments,
    Resolution.ofPortable?_toPortable storable.resolution, isFinite]
  simp only [Json.bind_kept, Bool.and_eq_true, ite_and]
  rfl

theorem isNarrow_toPortable (storable : field.Storable) :
    field.toPortable.AllScalars Json.IsNarrow := by
  rw [toPortable, Json.allScalars_object]
  simp only [List.forall_mem_cons]
  exact ⟨Json.allScalars_string field.name, field.type.isNarrow_toPortable,
    OrderedMap.isNarrow_toPortable fun entry _ => entry.2.isNarrow_toPortable,
    Resolution.isNarrow_toPortable storable.resolution, List.forall_mem_nil _⟩

end ObjectField

/-! ### Objects and schemas -/

namespace ObjectType

def Storable (object : ObjectType) : Prop :=
  ∀ entry ∈ object.fields.entries, entry.2.Storable

def isFinite (object : ObjectType) : Bool :=
  object.fields.entries.all fun entry => entry.2.isFinite

variable {object : ObjectType}

theorem ofPortable?_toPortable (storable : object.Storable) :
    ofPortable? object.toPortable = if object.isFinite then some object else none := by
  have fields : OrderedMap.ofPortable? ObjectField.ofPortable?
      (object.fields.toPortable ObjectField.toPortable) =
        if object.isFinite then some object.fields else none :=
    OrderedMap.ofPortable?_toPortable fun entry member =>
      ObjectField.ofPortable?_toPortable (storable entry member)
  show (OrderedMap.ofPortable? ObjectField.ofPortable?
    (object.fields.toPortable ObjectField.toPortable) >>= fun fields =>
      some (ObjectType.mk object.name fields)) = _
  rw [fields, Json.bind_kept]

theorem isNarrow_toPortable (storable : object.Storable) :
    object.toPortable.AllScalars Json.IsNarrow := by
  rw [toPortable, Json.allScalars_object]
  simp only [List.forall_mem_cons]
  exact ⟨Json.allScalars_string object.name, OrderedMap.isNarrow_toPortable fun entry member =>
    ObjectField.isNarrow_toPortable (storable entry member), List.forall_mem_nil _⟩

end ObjectType

namespace Schema

/-- Whether the positions of object types have thirty-two bits, all else in the schema is
within the bounds that documents have room for, and no record of a constant holds a key twice. -/
structure Storable (schema : Schema) : Prop where
  query : schema.query < UInt32.size
  objects : ∀ object ∈ schema.objects, object.Storable

def isFinite (schema : Schema) : Bool :=
  schema.objects.all ObjectType.isFinite

variable {schema : Schema}

theorem ofPortable?_toPortable (storable : schema.Storable) :
    ofPortable? schema.toPortable = if schema.isFinite then some schema else none := by
  have objects : (schema.objects.map ObjectType.toPortable).mapM ObjectType.ofPortable? =
      if schema.isFinite then some schema.objects else none :=
    Json.mapM_map_of_each fun object member =>
      ObjectType.ofPortable?_toPortable (storable.objects object member)
  show (do
    let query ← Json.natBelow? UInt32.size (.integer schema.query)
    let objects ← (schema.objects.map ObjectType.toPortable).mapM ObjectType.ofPortable?
    return Schema.mk query objects) = _
  rw [Json.natBelow?_natCast storable.query, objects]
  simp only [Json.bind_kept]
  rfl

theorem isNarrow_toPortable (storable : schema.Storable) :
    schema.toPortable.AllScalars Json.IsNarrow := by
  have objects : ∀ document ∈ schema.objects.map ObjectType.toPortable,
      document.AllScalars Json.IsNarrow := by
    intro document member
    obtain ⟨object, objectMember, rfl⟩ := List.mem_map.mp member
    exact ObjectType.isNarrow_toPortable (storable.objects object objectMember)
  rw [toPortable, Json.allScalars_object]
  simp only [List.forall_mem_cons, Json.allScalars_integer, Json.allScalars_array]
  exact ⟨Json.isNarrow_of_lt_uint32Size storable.query, objects, List.forall_mem_nil _⟩

/-- A stored schema is loaded exactly when it is finite, provided that the numbers written in
its text are read exactly and that a limit, if there is one, has room for its layers. -/
theorem loadWithin?_store {limit : Option Nat} (storable : schema.Storable)
    (room : Json.Room limit 0 schema.toPortable.nesting)
    (exact : ∀ number ∈ schema.toPortable.decimals, Json.IsExact number) :
    loadWithin? limit schema.store = if schema.isFinite then some schema else none := by
  rw [loadWithin?, store,
    Json.readWithin?_render_of_isNarrow (isNarrow_toPortable storable) exact room,
    Option.bind_some, ofPortable?_toPortable storable]

end Schema

end StagedResolver
