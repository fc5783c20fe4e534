/-
Objects of a response lie inside each other.

Whatever lies in an object was found by a field of that object, below any number of lists,
and the path to it has one key for each object that it enters.  The context of an object
has a level for each object around it, where the value stands that this was made of.
-/
import StagedResolver.Execution.Basic
import StagedResolver.Proofs.Value.Layers

namespace StagedResolver

namespace Context

def nested (environment : Record) (value : Value) : List Value → Context
  | [] => .root value environment
  | outer :: rest => (nested environment outer rest).child value

variable {environment : Record} {value : Value} {outer : List Value}

theorem current_nested : (nested environment value outer).current = value := by
  cases outer with
  | nil => rfl
  | cons inner rest => rfl

theorem arguments_nested : (nested environment value outer).arguments = [] := by
  cases outer with
  | nil => rfl
  | cons inner rest => rfl

theorem elements_nested : (nested environment value outer).elements = [] := by
  cases outer with
  | nil => rfl
  | cons inner rest => rfl

theorem environment_nested : (nested environment value outer).environment = environment := by
  induction outer generalizing value with
  | nil => rfl
  | cons inner rest ih => exact ih

/-- So many levels up is the context of the value so many places further out. -/
theorem ancestor?_nested (depth : Nat) :
    (nested environment value outer).ancestor? depth =
      match (value :: outer).drop depth with
      | [] => none
      | held :: rest => some (nested environment held rest) := by
  induction depth generalizing value outer with
  | zero => rfl
  | succ depth ih =>
      cases outer with
      | nil =>
          rw [List.drop_succ_cons, List.drop_nil]
          rfl
      | cons inner rest => exact ih

theorem ancestor?_withArguments (context : Context) (arguments : Record) (depth : Nat) :
    (context.withArguments arguments).ancestor? (depth + 1) = context.ancestor? (depth + 1) :=
  rfl

end Context

/-! ### Objects inside each other -/

/-- Whether a value is what an object is made of: it has no present layers, and it is not
null, absent or a list. -/
structure Value.IsObject (value : Value) : Prop where
  noLayer : value.kind ≠ .optional
  notNull : value ≠ .null
  noList : value.kind ≠ .sequence

/-- What the objects are made of that a value is completed to, by their indices in lists. -/
inductive Shape.ObjectIn : Shape → Value → List Nat → Value → Prop where
  | object {id : ObjectIndex} {required : Bool} {value : Value}
      (isObject : value.stripped.IsObject) :
      ObjectIn (.object id required) value [] value.stripped
  | item {item : Shape} {required : Bool} {value element held : Value} {items : List Value}
      {index : Nat} {indices : List Nat} (itemsAre : value.stripped = .sequence items)
      (atIndex : items[index]? = some element)
      (inside : ObjectIn item element indices held) :
      ObjectIn (.list item required) value (index :: indices) held

theorem Shape.ObjectIn.isObject {shape : Shape} {value held : Value} {indices : List Nat}
    (objectIn : shape.ObjectIn value indices held) : held.IsObject := by
  induction objectIn with
  | object isObject => exact isObject
  | item itemsAre atIndex inside ih => exact ih

/-- An object of a response: its type, what is asked of it, what it is made of, and what
the objects around it are made of, innermost first. -/
structure ResponseObject where
  type : ObjectType
  fields : List PlannedField
  value : Value
  outer : List Value

namespace ResponseObject

def values (object : ResponseObject) : List Value := object.value :: object.outer

def context (environment : Record) (object : ResponseObject) : Context :=
  .nested environment object.value object.outer

end ResponseObject

def PathStep.isKey : PathStep → Bool
  | .key _ => true
  | .index _ => false

def levelsOn (path : List PathStep) : Nat := path.countP PathStep.isKey

theorem levelsOn_append (upper lower : List PathStep) :
    levelsOn (upper ++ lower) = levelsOn upper + levelsOn lower :=
  List.countP_append

private theorem levelsOn_indices (indices : List Nat) : levelsOn (indices.map .index) = 0 := by
  induction indices with
  | nil => rfl
  | cons index rest ih => exact ih

/-- The path from an object of a response to one inside of it.  Each key is that of a field
which is resolved in the context of the object, and finds the next object below lists. -/
inductive Schema.Encloses (schema : Schema) (level : ReportLevel) (environment : Record) :
    ResponseObject → List PathStep → ResponseObject → Prop where
  | here (object : ResponseObject) : Encloses schema level environment object [] object
  | inner {object target : ResponseObject} {key name : String} {position : Position}
      {arguments : Record} {id : ObjectIndex} {type : ObjectType}
      {fields : List PlannedField} {field : ObjectField} {value held : Value}
      {indices : List Nat} {path : List PathStep}
      (member : .composite key position name arguments id fields ∈ object.fields)
      (fieldIs : object.type.fields.find? name = some field)
      (found : (field.resolution.source.evaluate level
        ((object.context environment).withArguments arguments)).result = .ok value)
      (objectIn : field.resolution.shape.ObjectIn value indices held)
      (typeIs : schema.object? id = some type)
      (encloses : Encloses schema level environment
        ⟨type, fields, held, object.values⟩ path target) :
      Encloses schema level environment object
        (.key key :: (indices.map .index ++ path)) target

namespace Schema.Encloses

variable {schema : Schema} {level : ReportLevel} {environment : Record}
  {object middle target : ResponseObject} {path : List PathStep}

private theorem levelsOn_inner (key : String) (indices : List Nat) (path : List PathStep) :
    levelsOn (.key key :: (indices.map .index ++ path)) = levelsOn path + 1 := by
  have below : levelsOn (indices.map .index ++ path) = levelsOn path := by
    rw [levelsOn_append, levelsOn_indices, Nat.zero_add]
  rw [← below]
  exact List.countP_cons_of_pos rfl

/-- The values around an object are those of the objects that enclose it. -/
theorem drop_values (encloses : schema.Encloses level environment object path target) :
    target.values.drop (levelsOn path) = object.values := by
  induction encloses with
  | here object => rfl
  | inner member fieldIs found objectIn typeIs encloses ih =>
      rw [levelsOn_inner, ← List.drop_drop, ih]
      rfl

theorem isObject_or_here (encloses : schema.Encloses level environment object path target) :
    target.value.IsObject ∨ levelsOn path = 0 ∧ target = object := by
  induction encloses with
  | here object => exact .inr ⟨rfl, rfl⟩
  | inner member fieldIs found objectIn typeIs encloses ih =>
      rcases ih with isObject | ⟨_, isHere⟩
      · exact .inl isObject
      · rw [isHere]
        exact .inl objectIn.isObject

/-- On the path to an object there is one object at each level. -/
theorem exists_at_level (encloses : schema.Encloses level environment object path target)
    {depth : Nat} (within : depth ≤ levelsOn path) :
    ∃ upper lower middle, path = upper ++ lower ∧ levelsOn lower = depth ∧
      schema.Encloses level environment object upper middle ∧
      schema.Encloses level environment middle lower target := by
  induction encloses with
  | here object =>
      have isZero : depth = 0 := Nat.le_zero.mp within
      exact ⟨[], [], object, rfl, isZero.symm, .here object, .here object⟩
  | @inner object target key name position arguments id type fields field value held indices
      path member fieldIs found objectIn typeIs encloses ih =>
      rw [levelsOn_inner] at within
      rcases Nat.lt_or_ge (levelsOn path) depth with above | below
      · have isOutermost : levelsOn path + 1 = depth := by omega
        refine ⟨[], _, object, rfl, ?_, .here object,
          .inner member fieldIs found objectIn typeIs encloses⟩
        rw [levelsOn_inner, isOutermost]
      · obtain ⟨upper, lower, middle, rfl, isDepth, enclosesMiddle, enclosesTarget⟩ := ih below
        have splits : PathStep.key key :: (indices.map .index ++ (upper ++ lower)) =
            (.key key :: (indices.map .index ++ upper)) ++ lower := by
          rw [List.cons_append, List.append_assoc]
        exact ⟨_, lower, middle, splits, isDepth,
          .inner member fieldIs found objectIn typeIs enclosesMiddle, enclosesTarget⟩

end Schema.Encloses

end StagedResolver
