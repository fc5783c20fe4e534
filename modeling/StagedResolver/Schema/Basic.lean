/-
Schemas, compiled.

A schema holds a resolution for every field.  Its object types are known by
their position, which is how shapes refer to them.
-/
import StagedResolver.OrderedMap
import StagedResolver.Schema.Resolution
import StagedResolver.Schema.TypeReference

namespace StagedResolver

structure FieldArgument where
  type : TypeReference
  fallback : Option Value
deriving Inhabited

structure ObjectField where
  name : String
  type : TypeReference
  arguments : OrderedMap FieldArgument
  resolution : Resolution
deriving Inhabited

structure ObjectType where
  name : String
  fields : OrderedMap ObjectField
deriving Inhabited

structure Schema where
  query : ObjectIndex
  objects : List ObjectType
deriving Inhabited

namespace Schema

def object? (schema : Schema) (id : ObjectIndex) : Option ObjectType :=
  schema.objects[id]?

def objectNamed? (schema : Schema) (name : String) : Option ObjectType :=
  schema.objects.find? fun object => object.name = name

def field? (schema : Schema) (typeName fieldName : String) :
    Option ObjectField := do
  let object ← schema.objectNamed? typeName
  object.fields.find? fieldName

end Schema

end StagedResolver
