/-
Compilation of declared schemas.

Objects and fields are compiled in order of declaration, and the first fault is
reported.
-/
import StagedResolver.Schema.Check
import StagedResolver.Schema.Declaration

namespace StagedResolver

def readType (place : SchemaPlace) (text : String) : Except SchemaError TypeReference :=
  match TypeReference.parse? text with
  | some type => .ok type
  | none => .error (.invalidReference place text)

theorem readType_eq_ok {place : SchemaPlace} {text : String} {type : TypeReference} :
    readType place text = .ok type ↔ TypeReference.parse? text = some type := by
  rw [readType]
  cases TypeReference.parse? text with
  | none => exact ⟨nofun, nofun⟩
  | some found =>
      exact ⟨fun same => congrArg some (Except.ok.inj same),
        fun same => congrArg Except.ok (Option.some.inj same)⟩

namespace SchemaDeclaration

def indexOf? (schema : SchemaDeclaration) (name : String) : Option ObjectIndex :=
  schema.objects.position? name

/-- The shape of a type: scalars by their names, and every other name as an
object. -/
def shape (schema : SchemaDeclaration) (place : SchemaPlace) :
    TypeReference → Except SchemaError Shape
  | .named name required =>
      match Scalar.ofName? name with
      | some scalar => .ok (.scalar scalar required)
      | none =>
          match schema.indexOf? name with
          | some id => .ok (.object id required)
          | none => .error (.unknownType place name)
  | .list item required => do
      let item ← shape schema place item
      return .list item required

end SchemaDeclaration

def ArgumentDeclaration.compile (place : SchemaPlace)
    (argument : ArgumentDeclaration) : Except SchemaError FieldArgument := do
  let type ← readType place argument.type
  match Scalar.ofName? type.innermost with
  | some _ => return ⟨type, argument.fallback⟩
  | none => throw (.invalidArgumentType place type)

def Provision.compile (place : SchemaPlace) (name : String) (type : TypeReference)
    (shape : Shape) (arguments : OrderedMap FieldArgument) :
    Provision → Except SchemaError Source
  | .passthrough => .ok (.passthrough name)
  | .constant value => do
      fitConstant place type shape value
      return .constant value
  | .resolver draft output => do
      fitOutput place type shape output
      match draft.lower with
      | .error fault => throw (.invalidPath place fault)
      | .ok expression =>
          checkReads place arguments expression
          return .computed expression

namespace SchemaDeclaration

def objectField (schema : SchemaDeclaration) (object name : String)
    (field : FieldDeclaration) : Except SchemaError ObjectField := do
  let place : SchemaPlace := ⟨object, name, none⟩
  let type ← readType place field.type
  let shape ← schema.shape place type
  let arguments ← field.arguments.entries.traverse fun argumentName argument =>
    argument.compile ⟨object, name, some argumentName⟩
  let arguments := OrderedMap.ofEntries arguments
  let kind ← field.provision.compile place name type shape arguments
  return ⟨name, type, arguments, ⟨kind, shape⟩⟩

def objectType (schema : SchemaDeclaration) (name : String)
    (object : ObjectDeclaration) : Except SchemaError ObjectType := do
  let fields ← object.entries.traverse (schema.objectField name)
  return ⟨name, .ofEntries fields⟩

def compile (schema : SchemaDeclaration) : Except SchemaError Schema := do
  match schema.indexOf? schema.query with
  | none => throw (.missingQueryType schema.query)
  | some query =>
      let objects ← schema.objects.entries.traverse schema.objectType
      return ⟨query, Entries.values objects⟩

end SchemaDeclaration

end StagedResolver
