/-
Objects and fields that are declared again.

However often the objects of a schema are declared, and their fields in each declaration, the
schema lists every object where it is first declared.  An object lists every field where it is
first declared in any declaration of the object, as the last one has it.  So a schema is the
same, and compiles to the same, when every object is declared once with every field once.
-/
import Mathlib.Data.List.Nodup
import StagedResolver.Proofs.Entries
import StagedResolver.Schema.Compilation

namespace StagedResolver

namespace ObjectDeclaration

def ofFields (fields : Entries FieldDeclaration) : ObjectDeclaration :=
  fields.foldl (fun object entry => ObjectDeclaration.field object entry.1 entry.2) .empty

private theorem entries_ofFields (fields : Entries FieldDeclaration) :
    (ofFields fields).entries = fields.collapse := by
  have declared (object : ObjectDeclaration) :
      (fields.foldl (fun object entry => ObjectDeclaration.field object entry.1 entry.2)
        object).entries = object.entries.putAll fields := by
    induction fields generalizing object with
    | nil => rfl
    | cons entry rest ih => exact ih (ObjectDeclaration.field object entry.1 entry.2)
  exact declared .empty

private theorem putAll_ofFields (fields more : Entries FieldDeclaration) :
    (ofFields fields).putAll (ofFields more).entries = ofFields (fields ++ more) := by
  -- The later fields are written once they have been settled among themselves.
  apply OrderedMap.eq_of_entries
  show (ofFields fields).entries.putAll (ofFields more).entries = _
  rw [entries_ofFields, entries_ofFields, entries_ofFields,
    Entries.putAll_collapse (Entries.distinctKeys_collapse fields), Entries.collapse_append]

private theorem ofFields_deduplicated (fields : Entries FieldDeclaration) :
    ofFields fields.deduplicated = ofFields fields := by
  apply OrderedMap.eq_of_entries
  rw [entries_ofFields, entries_ofFields, ← Entries.collapse_eq_deduplicated,
    (Entries.distinctKeys_collapse fields).collapse_eq]

end ObjectDeclaration

namespace SchemaDeclaration

variable (query : String) (objects : Entries (Entries FieldDeclaration))

def ofObjects : SchemaDeclaration :=
  objects.foldl (fun schema entry => schema.object entry.1 (.ofFields entry.2)) (.ofQuery query)

def fieldsOf (name : String) : Entries FieldDeclaration :=
  (objects.filter fun entry => entry.1 = name).flatMap Prod.snd

/-- One declaration of each object, with one declaration of each of its fields: where they are
first declared, and as they are last declared. -/
def declaredOnce : Entries (Entries FieldDeclaration) :=
  objects.firstKeys.map fun name => (name, (fieldsOf objects name).deduplicated)

variable {query objects}

private theorem fieldsOf_append_singleton (name : String)
    (last : String × Entries FieldDeclaration) :
    fieldsOf (objects ++ [last]) name =
      if last.1 = name then fieldsOf objects name ++ last.2 else fieldsOf objects name := by
  rw [fieldsOf, List.filter_append, List.flatMap_append, ← fieldsOf]
  by_cases same : last.1 = name
  · rw [if_pos same, List.filter_cons_of_pos (by simpa using same), List.filter_nil,
      List.flatMap_singleton]
  · rw [if_neg same, List.filter_cons_of_neg (by simpa using same), List.filter_nil,
      List.flatMap_nil, List.append_nil]

private theorem fieldsOf_of_notMem {name : String} (unknown : name ∉ objects.keys) :
    fieldsOf objects name = [] := by
  have noneNamed : objects.filter (fun entry => entry.1 = name) = [] := by
    rw [List.filter_eq_nil_iff]
    intro entry member same
    exact unknown (List.mem_map.mpr ⟨entry, member, of_decide_eq_true same⟩)
  rw [fieldsOf, noneNamed, List.flatMap_nil]

private theorem ofObjects_append_singleton (last : String × Entries FieldDeclaration) :
    ofObjects query (objects ++ [last]) =
      (ofObjects query objects).object last.1 (.ofFields last.2) := by
  rw [ofObjects, List.foldl_append]
  rfl

private theorem query_ofObjects : (ofObjects query objects).query = query := by
  induction objects using List.reverseRecOn with
  | nil => rfl
  | append_singleton objects last ih =>
      rw [ofObjects_append_singleton]
      exact ih

private theorem find?_object (schema : SchemaDeclaration) (name key : String)
    (object : ObjectDeclaration) :
    (schema.object name object).objects.find? key =
      if key = name then
        some (match schema.objects.find? name with
          | some earlier => earlier.putAll object.entries
          | none => object)
      else schema.objects.find? key :=
  Entries.find?_put ..

/-- An object has the fields of all its declarations. -/
theorem find?_ofObjects (name : String) :
    (ofObjects query objects).objects.find? name =
      if name ∈ objects.keys then some (.ofFields (fieldsOf objects name)) else none := by
  induction objects using List.reverseRecOn generalizing name with
  | nil => rfl
  | append_singleton objects last ih =>
      rw [ofObjects_append_singleton, find?_object, fieldsOf_append_singleton,
        Entries.keys_append, ih, ih]
      by_cases same : name = last.1
      · subst same
        have member : last.1 ∈ Entries.keys objects ++ Entries.keys [last] :=
          List.mem_append_right _ (List.mem_singleton_self last.1)
        rw [if_pos rfl, if_pos rfl, if_pos member]
        by_cases known : last.1 ∈ Entries.keys objects
        · rw [if_pos known]
          exact congrArg some (ObjectDeclaration.putAll_ofFields _ last.2)
        · rw [if_neg known, fieldsOf_of_notMem known]
          rfl
      · have different : ¬ last.1 = name := fun equal => same equal.symm
        have sameMember : name ∈ Entries.keys objects ++ Entries.keys [last] ↔
            name ∈ Entries.keys objects := by
          rw [List.mem_append, or_iff_left]
          exact fun member => same (List.mem_singleton.mp member)
        rw [if_neg same, if_neg different]
        simp only [sameMember]

private theorem keys_ofObjects :
    (ofObjects query objects).objects.entries.keys = objects.firstKeys := by
  induction objects using List.reverseRecOn with
  | nil => rfl
  | append_singleton objects last ih =>
      have sameMember : last.1 ∈ (ofObjects query objects).objects.entries.keys ↔
          last.1 ∈ Entries.keys objects := by
        rw [ih, Entries.firstKeys, List.mem_eraseDups]
      rw [ofObjects_append_singleton, Entries.firstKeys, Entries.keys_append]
      show Entries.keys (Entries.put last.1 _ _) = (Entries.keys objects ++ [last.1]).eraseDups
      rw [eraseDups_append_singleton, ← Entries.firstKeys, ← ih]
      by_cases known : last.1 ∈ Entries.keys objects
      · rw [if_pos known, Entries.keys_put_of_mem _ (sameMember.mpr known)]
      · rw [if_neg known, Entries.keys_put_of_notMem _ (mt sameMember.mp known)]

private theorem keys_object_ofObjects (name : String) :
    ((ofObjects query objects).objects.find? name).map (fun object => object.entries.keys) =
      if name ∈ objects.keys then some (fieldsOf objects name).firstKeys else none := by
  rw [find?_ofObjects]
  by_cases known : name ∈ objects.keys
  · rw [if_pos known, if_pos known, Option.map_some, ObjectDeclaration.entries_ofFields,
      Entries.keys_collapse]
  · rw [if_neg known, if_neg known, Option.map_none]

private theorem find?_field_ofObjects (name field : String) :
    ((ofObjects query objects).objects.find? name).bind (OrderedMap.find? field) =
      (fieldsOf objects name).findLast? field := by
  rw [find?_ofObjects]
  by_cases known : name ∈ objects.keys
  · rw [if_pos known, Option.bind_some, OrderedMap.find?, ObjectDeclaration.entries_ofFields,
      Entries.find?_collapse]
  · rw [if_neg known, fieldsOf_of_notMem known]
    rfl

/-! ### One declaration of each object -/

private theorem keys_declaredOnce : (declaredOnce objects).keys = objects.firstKeys := by
  rw [declaredOnce, Entries.keys, List.map_map]
  exact List.map_id _

private theorem mem_keys_declaredOnce {name : String} :
    name ∈ (declaredOnce objects).keys ↔ name ∈ objects.keys := by
  rw [keys_declaredOnce, Entries.firstKeys, List.mem_eraseDups]

private theorem distinctKeys_declaredOnce : (declaredOnce objects).DistinctKeys := by
  rw [Entries.DistinctKeys, keys_declaredOnce, ← Entries.keys_collapse]
  exact Entries.distinctKeys_collapse objects

private theorem firstKeys_declaredOnce : (declaredOnce objects).firstKeys = objects.firstKeys := by
  rw [← Entries.keys_collapse, distinctKeys_declaredOnce.collapse_eq, keys_declaredOnce]

private theorem fieldsOf_declaredOnce {name : String} (known : name ∈ objects.keys) :
    fieldsOf (declaredOnce objects) name = (fieldsOf objects name).deduplicated := by
  have onlyOne : objects.firstKeys.filter (fun key => key = name) = [name] := by
    have distinct : objects.firstKeys.Nodup := by
      rw [← keys_declaredOnce]
      exact distinctKeys_declaredOnce
    have member : name ∈ objects.firstKeys := List.mem_eraseDups.mpr known
    rw [List.filter_eq, List.count_eq_one_of_mem distinct member]
    rfl
  rw [fieldsOf, declaredOnce, List.filter_map]
  show (List.map _ (objects.firstKeys.filter fun key => key = name)).flatMap _ = _
  rw [onlyOne]
  exact List.append_nil _

private theorem ofObjects_declaredOnce :
    ofObjects query (declaredOnce objects) = ofObjects query objects := by
  have sameObjects :
      (ofObjects query (declaredOnce objects)).objects = (ofObjects query objects).objects := by
    apply OrderedMap.eq_of_entries
    refine (OrderedMap.distinct _).ext (OrderedMap.distinct _) ?keys fun name => ?found
    case keys =>
      rw [keys_ofObjects, keys_ofObjects, firstKeys_declaredOnce]
    case found =>
      show OrderedMap.find? name _ = OrderedMap.find? name _
      rw [find?_ofObjects, find?_ofObjects]
      by_cases known : name ∈ objects.keys
      · rw [if_pos known, if_pos (mem_keys_declaredOnce.mpr known), fieldsOf_declaredOnce known,
          ObjectDeclaration.ofFields_deduplicated]
      · rw [if_neg known, if_neg (mt mem_keys_declaredOnce.mp known)]
  have sameQuery :
      (ofObjects query (declaredOnce objects)).query = (ofObjects query objects).query := by
    rw [query_ofObjects, query_ofObjects]
  cases once : ofObjects query (declaredOnce objects) with
  | mk onceQuery onceObjects =>
      cases declared : ofObjects query objects with
      | mk declaredQuery declaredObjects =>
          rw [once, declared] at sameObjects sameQuery
          cases sameObjects
          cases sameQuery
          rfl

/-- First place and last declaration, for whole schemas: objects are listed where they are first
declared, and the fields of each where they are first declared in any of its declarations, as
they are last declared there.  Declaring each object once with each field once gives the same
schema, which compiles to the same. -/
theorem ofObjects_settles (query : String) (objects : Entries (Entries FieldDeclaration)) :
    (ofObjects query objects).query = query ∧
      (ofObjects query objects).objects.entries.keys = objects.firstKeys ∧
      (∀ name,
        ((ofObjects query objects).objects.find? name).map (fun object => object.entries.keys) =
          if name ∈ objects.keys then some (fieldsOf objects name).firstKeys else none) ∧
      (∀ name field,
        ((ofObjects query objects).objects.find? name).bind (OrderedMap.find? field) =
          (fieldsOf objects name).findLast? field) ∧
      (declaredOnce objects).DistinctKeys ∧
      (∀ name, (fieldsOf objects name).deduplicated.DistinctKeys) ∧
      ofObjects query (declaredOnce objects) = ofObjects query objects ∧
      (ofObjects query (declaredOnce objects)).compile = (ofObjects query objects).compile :=
  ⟨query_ofObjects, keys_ofObjects, keys_object_ofObjects, find?_field_ofObjects,
    distinctKeys_declaredOnce, fun _ => Entries.distinctKeys_deduplicated _,
    ofObjects_declaredOnce, congrArg compile ofObjects_declaredOnce⟩

end SchemaDeclaration

end StagedResolver
