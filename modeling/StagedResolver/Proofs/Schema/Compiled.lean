/-
What compiled schemas are made of.

Compilation makes one object type of every declared object and one field of every
declared field, in the order of declaration.  Every position that a shape mentions is
looked up among the declared objects, so that a compiled schema is closed: no position
in it leads to an object type that it does not have.
-/
import StagedResolver.Proofs.Success
import StagedResolver.Schema.Compilation

namespace StagedResolver

namespace Entries

variable {ε α β : Type} {change : String → α → Except ε β}

theorem traverse_eq_ok {entries : Entries α} {results : Entries β} :
    traverse change entries = .ok results ↔
      List.Forall₂ (fun entry result =>
        result.1 = entry.1 ∧ change entry.1 entry.2 = .ok result.2) entries results := by
  induction entries generalizing results with
  | nil =>
      constructor
      · intro succeeds
        cases succeeds
        exact .nil
      · intro related
        cases related
        rfl
  | cons entry rest ih =>
      obtain ⟨key, held⟩ := entry
      rw [traverse, bind_eq_ok]
      constructor
      · rintro ⟨changed, isChanged, succeeds⟩
        obtain ⟨others, restChanged, same⟩ := bind_eq_ok.mp succeeds
        cases same
        exact .cons ⟨rfl, isChanged⟩ (ih.mp restChanged)
      · intro related
        cases related with
        | @cons _ result _ others first restRelated =>
            obtain ⟨sameKey, isChanged⟩ := first
            obtain ⟨name, changed⟩ := result
            cases sameKey
            exact ⟨changed, isChanged, bind_eq_ok.mpr ⟨others, ih.mpr restRelated, rfl⟩⟩

theorem exists_traverse {entries : Entries α}
    (each : ∀ entry ∈ entries, ∃ result, change entry.1 entry.2 = .ok result) :
    ∃ results, traverse change entries = .ok results := by
  induction entries with
  | nil => exact ⟨[], rfl⟩
  | cons entry rest ih =>
      obtain ⟨first, others⟩ := List.forall_mem_cons.mp each
      obtain ⟨result, isChanged⟩ := first
      obtain ⟨results, restChanged⟩ := ih others
      exact ⟨(entry.1, result) :: results,
        bind_eq_ok.mpr ⟨result, isChanged, bind_eq_ok.mpr ⟨results, restChanged, rfl⟩⟩⟩

/-- What is found among changed entries is what the entry that is found is changed to. -/
theorem rel_find? {entries : Entries α} {results : Entries β}
    (each : List.Forall₂ (fun entry result =>
      result.1 = entry.1 ∧ change entry.1 entry.2 = .ok result.2) entries results)
    (key : String) :
    Option.Rel (fun held result => change key held = .ok result) (find? key entries)
      (find? key results) := by
  induction each with
  | nil => exact .none
  | @cons entry result _ _ first _ ih =>
      obtain ⟨name, held⟩ := entry
      obtain ⟨sameKey, isChanged⟩ := first
      by_cases same : name = key
      · simp only [find?, sameKey, same, if_true]
        rw [← same]
        exact .some isChanged
      · simp only [find?, sameKey, same, if_false]
        exact ih

theorem keys_of_forall₂ {related : String × α → String × β → Prop} {entries : Entries α}
    {results : Entries β}
    (forall₂ : List.Forall₂ (fun entry result =>
      result.1 = entry.1 ∧ related entry result) entries results) :
    keys results = keys entries := by
  induction forall₂ with
  | nil => rfl
  | cons first _ ih => exact congrArg₂ List.cons first.1 ih

theorem ofEntries_of_forall₂ {related : String × α → String × β → Prop} {table : OrderedMap α}
    {results : Entries β}
    (forall₂ : List.Forall₂ (fun entry result =>
      result.1 = entry.1 ∧ related entry result) table.entries results) :
    (OrderedMap.ofEntries results).entries = results := by
  have distinct : DistinctKeys results := by
    rw [DistinctKeys, keys_of_forall₂ forall₂]
    exact table.distinct
  exact DistinctKeys.collapse_eq distinct

end Entries

/-! ### Compilation, part by part -/

namespace SchemaDeclaration

variable {declaration : SchemaDeclaration}

theorem objectType_eq_ok {name : String} {object : ObjectDeclaration} {type : ObjectType} :
    declaration.objectType name object = .ok type ↔
      type.name = name ∧ List.Forall₂ (fun entry field =>
        field.1 = entry.1 ∧ declaration.objectField name entry.1 entry.2 = .ok field.2)
          object.entries type.fields.entries := by
  rw [objectType, bind_eq_ok]
  constructor
  · rintro ⟨fields, traversed, same⟩
    cases same
    have each := Entries.traverse_eq_ok.mp traversed
    rw [Entries.ofEntries_of_forall₂ each]
    exact ⟨rfl, each⟩
  · rintro ⟨rfl, each⟩
    refine ⟨type.fields.entries, Entries.traverse_eq_ok.mpr each, congrArg Except.ok ?_⟩
    have sameFields : OrderedMap.ofEntries type.fields.entries = type.fields :=
      OrderedMap.eq_of_entries (Entries.ofEntries_of_forall₂ each)
    rw [sameFields]

theorem compile_eq_ok {schema : Schema} :
    declaration.compile = .ok schema ↔
      declaration.indexOf? declaration.query = some schema.query ∧
        List.Forall₂ (fun entry object => declaration.objectType entry.1 entry.2 = .ok object)
          declaration.objects.entries schema.objects := by
  rw [compile]
  cases queryIs : declaration.indexOf? declaration.query with
  | none =>
      constructor
      · intro impossible
        cases impossible
      · rintro ⟨impossible, _⟩
        cases impossible
  | some query =>
      simp only [bind_eq_ok]
      constructor
      · rintro ⟨objects, traversed, same⟩
        cases same
        have each := Entries.traverse_eq_ok.mp traversed
        exact ⟨rfl, List.forall₂_map_right_iff.mpr (each.imp fun _ _ changed => changed.2)⟩
      · rintro ⟨same, each⟩
        cases same
        have values : Entries.values (schema.objects.map fun object => (object.name, object)) =
            schema.objects := by
          rw [Entries.values, List.map_map]
          exact List.map_id _
        refine ⟨schema.objects.map fun object => (object.name, object),
          Entries.traverse_eq_ok.mpr ?_, ?_⟩
        · exact List.forall₂_map_right_iff.mpr (each.imp fun entry object made =>
            ⟨(objectType_eq_ok.mp made).1, made⟩)
        · rw [values]
          rfl

theorem names_of_compile {schema : Schema} (compiled : declaration.compile = .ok schema) :
    schema.objects.map ObjectType.name = declaration.objects.entries.keys := by
  obtain ⟨_, objects⟩ := compile_eq_ok.mp compiled
  rw [Entries.keys, ← List.forall₂_eq_eq_eq]
  refine List.forall₂_map_left_iff.mpr (List.forall₂_map_right_iff.mpr ?_)
  exact objects.flip.imp fun type entry made => (objectType_eq_ok.mp made).1

/-- What is at a position of a compiled schema is made of what is declared there. -/
theorem rel_object?_of_compile {schema : Schema} (compiled : declaration.compile = .ok schema)
    (id : ObjectIndex) :
    Option.Rel (fun entry type => declaration.objectType entry.1 entry.2 = .ok type)
      declaration.objects.entries[id]? (schema.object? id) := by
  obtain ⟨_, objects⟩ := compile_eq_ok.mp compiled
  rw [Schema.object?]
  generalize declaration.objects.entries = entries, schema.objects = types at objects
  induction objects generalizing id with
  | nil => exact .none
  | cons first _ ih =>
      cases id with
      | zero => exact .some first
      | succ id => exact ih id

theorem exists_object_of_compile {schema : Schema} (compiled : declaration.compile = .ok schema)
    {object : ObjectType} (member : object ∈ schema.objects) :
    ∃ declared, (object.name, declared) ∈ declaration.objects.entries ∧
      declaration.objectType object.name declared = .ok object := by
  obtain ⟨_, objects⟩ := compile_eq_ok.mp compiled
  obtain ⟨entry, entryMember, made⟩ := exists_mem_of_forall₂ objects object member
  have sameName : object.name = entry.1 := (objectType_eq_ok.mp made).1
  rw [sameName]
  exact ⟨entry.2, entryMember, made⟩

theorem exists_field_of_objectType {objectName : String} {declared : ObjectDeclaration}
    {object : ObjectType} (made : declaration.objectType objectName declared = .ok object)
    {name : String} {field : ObjectField} (member : (name, field) ∈ object.fields.entries) :
    ∃ declaredField, (name, declaredField) ∈ declared.entries ∧
      declaration.objectField objectName name declaredField = .ok field := by
  obtain ⟨_, fields⟩ := objectType_eq_ok.mp made
  obtain ⟨⟨_, declaredField⟩, entryMember, sameName, fieldMade⟩ :=
    exists_mem_of_forall₂ fields (name, field) member
  cases sameName
  exact ⟨declaredField, entryMember, fieldMade⟩

theorem objectField_eq_ok {object name : String} {declared : FieldDeclaration}
    {field : ObjectField} :
    declaration.objectField object name declared = .ok field ↔
      field.name = name ∧ readType ⟨object, name, none⟩ declared.type = .ok field.type ∧
        declaration.shape ⟨object, name, none⟩ field.type = .ok field.resolution.shape ∧
        List.Forall₂ (fun entry argument => argument.1 = entry.1 ∧
          entry.2.compile ⟨object, name, some entry.1⟩ = .ok argument.2)
            declared.arguments.entries field.arguments.entries ∧
        declared.provision.compile ⟨object, name, none⟩ name field.type field.resolution.shape
          field.arguments = .ok field.resolution.source := by
  simp only [objectField, bind_eq_ok]
  constructor
  · rintro ⟨type, typeRead, shape, shapeIs, arguments, traversed, source, sourceIs, same⟩
    cases same
    have each := Entries.traverse_eq_ok.mp traversed
    rw [Entries.ofEntries_of_forall₂ each]
    exact ⟨rfl, typeRead, shapeIs, each, sourceIs⟩
  · rintro ⟨rfl, typeRead, shapeIs, each, sourceIs⟩
    have sameArguments : OrderedMap.ofEntries field.arguments.entries = field.arguments :=
      OrderedMap.eq_of_entries (Entries.ofEntries_of_forall₂ each)
    refine ⟨field.type, typeRead, field.resolution.shape, shapeIs, field.arguments.entries,
      Entries.traverse_eq_ok.mpr each, field.resolution.source, ?_, ?_⟩
    · rw [sameArguments]
      exact sourceIs
    · rw [sameArguments]
      rfl

private theorem object?_of_shape {place : SchemaPlace} {type : TypeReference} {shape : Shape}
    {id : ObjectIndex} (shapeIs : declaration.shape place type = .ok shape)
    (ofObject : shape.object? = some id) :
    declaration.indexOf? type.innermost = some id := by
  induction type generalizing shape with
  | named name required =>
      rw [SchemaDeclaration.shape] at shapeIs
      split at shapeIs
      · cases shapeIs
        cases ofObject
      · split at shapeIs
        · rename_i found
          cases shapeIs
          cases ofObject
          exact found
        · cases shapeIs
  | list item required ih =>
      obtain ⟨inner, innerIs, same⟩ := bind_eq_ok.mp shapeIs
      cases same
      exact ih innerIs ofObject

end SchemaDeclaration

namespace Schema

/-- Whether a schema mentions a position: that of its query type, or one in the shape of a
field. -/
inductive Mentions (schema : Schema) : ObjectIndex → Prop where
  | query : Mentions schema schema.query
  | shape {object : ObjectType} {name : String} {field : ObjectField} {id : ObjectIndex}
      (member : object ∈ schema.objects) (fieldMember : (name, field) ∈ object.fields.entries)
      (ofObject : field.resolution.shape.object? = some id) : Mentions schema id

/-- Whether every position that a schema mentions is that of one of its object types. -/
def Closed (schema : Schema) : Prop :=
  ∀ id, schema.Mentions id → id < schema.objects.length

theorem object?_eq_none_iff {schema : Schema} {id : ObjectIndex} :
    schema.object? id = none ↔ schema.objects.length ≤ id :=
  List.getElem?_eq_none_iff

/-- No position in a compiled schema leads out of it. -/
theorem closed_of_compile {declaration : SchemaDeclaration} {schema : Schema}
    (compiled : declaration.compile = .ok schema) : schema.Closed := by
  obtain ⟨queryIs, objects⟩ := SchemaDeclaration.compile_eq_ok.mp compiled
  have inRange {name : String} {id : ObjectIndex} (isIndex : declaration.indexOf? name = some id) :
      id < schema.objects.length := by
    obtain ⟨declared, atPlace, _⟩ := Entries.position?_eq_some isIndex
    rw [← objects.length_eq]
    exact (List.getElem?_eq_some_iff.mp atPlace).1
  intro id mentions
  cases mentions with
  | query => exact inRange queryIs
  | shape member fieldMember ofObject =>
      obtain ⟨_, _, objectMade⟩ := SchemaDeclaration.exists_object_of_compile compiled member
      obtain ⟨_, _, made⟩ := SchemaDeclaration.exists_field_of_objectType objectMade fieldMember
      obtain ⟨_, _, shapeIs, _⟩ := SchemaDeclaration.objectField_eq_ok.mp made
      exact inRange (SchemaDeclaration.object?_of_shape shapeIs ofObject)

end Schema

end StagedResolver
