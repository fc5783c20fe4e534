/-
Schemas as their authors declare them.

A field declared again is replaced in its place, and an object declared again is
extended, so that a part of a schema can be overridden.
-/
import StagedResolver.Expression.Term
import StagedResolver.OrderedMap

namespace StagedResolver

structure ArgumentDeclaration where
  type : String
  fallback : Option Value
deriving Inhabited

inductive Provision where
  | passthrough
  | constant (value : Value)
  | resolver (draft : Draft) (output : ValueType)
deriving Inhabited

def Provision.word : Provision → String
  | .passthrough => "passthrough"
  | .constant _ => "constant"
  | .resolver _ _ => "expression"

structure FieldDeclaration where
  type : String
  arguments : OrderedMap ArgumentDeclaration
  provision : Provision
deriving Inhabited

namespace FieldDeclaration

def ofType (type : String) : FieldDeclaration :=
  ⟨type, .empty, .passthrough⟩

/-- Declares an argument; an argument of that name is replaced in its place. -/
def argument (field : FieldDeclaration) (name : String)
    (argument : ArgumentDeclaration) : FieldDeclaration :=
  { field with arguments := field.arguments.put name argument }

def provide (field : FieldDeclaration) (provision : Provision) : FieldDeclaration :=
  { field with provision := provision }

def resolve (field : FieldDeclaration) (term : Term) : FieldDeclaration :=
  field.provide (.resolver term.draft term.type)

end FieldDeclaration

abbrev ObjectDeclaration := OrderedMap FieldDeclaration

namespace ObjectDeclaration

def field (object : ObjectDeclaration) (name : String) (field : FieldDeclaration) :
    ObjectDeclaration :=
  object.put name field

end ObjectDeclaration

structure SchemaDeclaration where
  query : String
  objects : OrderedMap ObjectDeclaration
deriving Inhabited

namespace SchemaDeclaration

def ofQuery (query : String) : SchemaDeclaration := ⟨query, .empty⟩

/-- Declares an object type; an object of that name is extended. -/
def object (schema : SchemaDeclaration) (name : String) (object : ObjectDeclaration) :
    SchemaDeclaration :=
  let whole :=
    match schema.objects.find? name with
    | some earlier => earlier.putAll object.entries
    | none => object
  { schema with objects := schema.objects.put name whole }

end SchemaDeclaration

end StagedResolver
