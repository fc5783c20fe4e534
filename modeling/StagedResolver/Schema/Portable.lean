/-
The portable form of schemas, in which they are stored and loaded.
-/
import StagedResolver.Json.Reader
import StagedResolver.Schema.Basic

namespace StagedResolver

namespace FieldArgument

def toPortable (argument : FieldArgument) : Json :=
  .object [("ty", argument.type.toPortable),
    ("default",
      match argument.fallback with
      | some value => value.toPortable
      | none => .null)]

/-- The fallback of a document; a missing one and null are none. -/
def fallbackOfPortable? : Option Json → Option (Option Value)
  | none => some none
  | some .null => some none
  | some document => (Value.ofPortable? document).map some

def ofPortable? (document : Json) : Option FieldArgument :=
  match document.fields? ["ty", "default"] with
  | some [some type, fallback] => do
      let type ← TypeReference.ofPortable? type
      let fallback ← fallbackOfPortable? fallback
      return ⟨type, fallback⟩
  | _ => none

end FieldArgument

def OrderedMap.ofPortable? {α : Type} (item? : Json → Option α) :
    Json → Option (OrderedMap α)
  | .object members => do
      let entries ← members.mapM fun member => do
        let held ← item? member.2
        return (member.1, held)
      return .ofEntries entries
  | _ => none

def OrderedMap.toPortable {α : Type} (item : α → Json) (table : OrderedMap α) : Json :=
  .object (table.entries.mapValues fun _ held => item held)

namespace ObjectField

def toPortable (field : ObjectField) : Json :=
  .object [("name", .string field.name), ("ty", field.type.toPortable),
    ("arguments", field.arguments.toPortable FieldArgument.toPortable),
    ("step", field.resolution.toPortable)]

def ofPortable? (document : Json) : Option ObjectField :=
  match document.fields? ["name", "ty", "arguments", "step"] with
  | some [some name, some type, some arguments, some resolution] => do
      let name ← name.string?
      let type ← TypeReference.ofPortable? type
      let arguments ← OrderedMap.ofPortable? FieldArgument.ofPortable? arguments
      let resolution ← Resolution.ofPortable? resolution
      return ⟨name, type, arguments, resolution⟩
  | _ => none

end ObjectField

namespace ObjectType

def toPortable (object : ObjectType) : Json :=
  .object [("name", .string object.name),
    ("fields", object.fields.toPortable ObjectField.toPortable)]

def ofPortable? (document : Json) : Option ObjectType :=
  match document.fields? ["name", "fields"] with
  | some [some name, some fields] => do
      let name ← name.string?
      let fields ← OrderedMap.ofPortable? ObjectField.ofPortable? fields
      return ⟨name, fields⟩
  | _ => none

end ObjectType

namespace Schema

def toPortable (schema : Schema) : Json :=
  .object [("query", .integer schema.query),
    ("objects", .array (schema.objects.map ObjectType.toPortable))]

def objectsOfPortable? : Json → Option (List ObjectType)
  | .array items => items.mapM ObjectType.ofPortable?
  | _ => none

def ofPortable? (document : Json) : Option Schema :=
  match document.fields? ["query", "objects"] with
  | some [some query, some objects] => do
      let query ← query.natBelow? UInt32.size
      let objects ← objectsOfPortable? objects
      return ⟨query, objects⟩
  | _ => none

def store (schema : Schema) : String := schema.toPortable.render

def loadWithin? (limit : Option Nat) (text : String) : Option Schema :=
  (Json.readWithin? limit text).bind ofPortable?

def load? (text : String) : Option Schema :=
  loadWithin? (some Json.deepest) text

end Schema

end StagedResolver
