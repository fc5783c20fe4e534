/-
What a schema is checked for before any request.

A resolver must be able to produce the declared type, a constant must be of it,
and a resolver may read only declared arguments, at the types they have.
-/
import StagedResolver.Expression.Lowering
import StagedResolver.Schema.Basic

namespace StagedResolver

structure SchemaPlace where
  object : String
  field : String
  argument : Option String
deriving DecidableEq, Inhabited

def SchemaPlace.display (place : SchemaPlace) : String :=
  place.object ++ "." ++ place.field ++
    (match place.argument with
      | some argument => "(" ++ argument ++ ")"
      | none => "")

inductive Produced where
  | constant (kind : ValueKind)
  | output (type : ValueType)
deriving DecidableEq, Inhabited

def Produced.display : Produced → String
  | .constant kind => kind.name
  | .output type => type.display

inductive SchemaError where
  | missingQueryType (name : String)
  | invalidReference (place : SchemaPlace) (text : String)
  | unknownType (place : SchemaPlace) (name : String)
  | invalidArgumentType (place : SchemaPlace) (type : TypeReference)
  | shapeMismatch (place : SchemaPlace) (expected : TypeReference) (found : Produced)
  | scalarTypeMismatch (place : SchemaPlace) (expected : Scalar) (found : Produced)
  | unknownArgument (place : SchemaPlace) (segment : PathStep)
  | argumentTypeMismatch (place : SchemaPlace) (argument : String)
      (declared : TypeReference) (found : ValueType)
  | invalidPath (place : SchemaPlace) (fault : LoweringError)
deriving DecidableEq, Inhabited

def invalidReferenceText (text : String) : String :=
  "'" ++ text ++ "' is not a valid type reference"

def SchemaError.message : SchemaError → String
  | .missingQueryType name => "The query type '" ++ name ++ "' is not declared"
  | .invalidReference place text =>
      "At " ++ place.display ++ ", " ++ invalidReferenceText text
  | .unknownType place name =>
      "At " ++ place.display ++ ", unknown type '" ++ name ++ "'"
  | .invalidArgumentType place type =>
      "At " ++ place.display ++ ", arguments can only be built of scalars but found '" ++
        type.display ++ "'"
  | .shapeMismatch place expected found =>
      "At " ++ place.display ++ ", the resolver produces " ++ found.display ++
        " but the field is declared as " ++ expected.display
  | .scalarTypeMismatch place expected found =>
      "At " ++ place.display ++ ", the resolver produces " ++ found.display ++
        " which can't be returned as " ++ expected.name
  | .unknownArgument place segment =>
      "At " ++ place.display ++ ", the resolver reads the undeclared argument '" ++
        segment.display ++ "'"
  | .argumentTypeMismatch place argument declared found =>
      "At " ++ place.display ++ ", the resolver reads the argument '" ++ argument ++
        "' as " ++ found.display ++ " but it is declared as " ++ declared.display
  | .invalidPath place fault => "At " ++ place.display ++ ", " ++ fault.message

/-- Checks a constant against the shape of its field.  Null and absent fit every
shape: whether they are allowed is decided when they are completed. -/
def fitConstant (place : SchemaPlace) (type : TypeReference) :
    Shape → Value → Except SchemaError Unit
  | shape, value =>
      match value.present? with
      | none => .ok ()
      | some .null => .ok ()
      | some inner =>
          let mismatch : Except SchemaError Unit :=
            .error (.shapeMismatch place type (.constant inner.kind))
          match shape with
          | .list item _ =>
              match inner with
              | .sequence items =>
                  items.forM fun element => fitConstant place type item element
              | _ => mismatch
          | .object _ _ =>
              match inner with
              | .sequence _ => mismatch
              | _ => .ok ()
          | .scalar leaf _ =>
              if leaf = .json then .ok ()
              else
                match inner with
                | .sequence _ => mismatch
                | .record _ => mismatch
                | other =>
                    if leaf.takes other then .ok ()
                    else .error (.scalarTypeMismatch place leaf (.constant other.kind))

def fitOutput (place : SchemaPlace) (type : TypeReference) :
    Shape → ValueType → Except SchemaError Unit
  | shape, output =>
      let output := output.withoutOptional
      let mismatch : Except SchemaError Unit :=
        .error (.shapeMismatch place type (.output output))
      match output with
      | .any => .ok ()
      | _ =>
          match shape with
          | .list item _ =>
              match output with
              | .sequence element => fitOutput place type item element
              | _ => mismatch
          | .object _ _ =>
              match output with
              | .sequence _ => mismatch
              | _ => .ok ()
          | .scalar leaf _ =>
              if leaf = .json then .ok ()
              else
                match output with
                | .sequence _ => mismatch
                | .record => mismatch
                | other =>
                    if leaf.takesType other then .ok ()
                    else .error (.scalarTypeMismatch place leaf (.output other))

def mayBeReadAt : TypeReference → ValueType → Bool
  | .list item _, expected =>
      match expected with
      | .any => true
      | .sequence element => mayBeReadAt item element.withoutOptional
      | _ => false
  | .named name _, expected =>
      match expected with
      | .any => true
      | .sequence _ => false
      | other =>
          match Scalar.ofName? name with
          | some scalar => scalar.inputType = .any || scalar.inputType = other
          | none => false

/-- Checks one lookup: one in the arguments starts with a declared argument, and one
of an argument itself is of a type that the argument may be read at. -/
def checkRead (place : SchemaPlace) (arguments : OrderedMap FieldArgument)
    (lookup : Lookup) : Except SchemaError Unit :=
  match lookup.root, lookup.segments with
  | .arguments, first :: rest =>
      let declared :=
        match first with
        | .key name => arguments.find? name
        | .index _ => none
      match declared with
      | none => .error (.unknownArgument place first)
      | some argument =>
          if rest.isEmpty && !mayBeReadAt argument.type lookup.expected.withoutOptional then
            .error (.argumentTypeMismatch place first.display argument.type
              lookup.expected)
          else .ok ()
  | _, _ => .ok ()

def checkReads (place : SchemaPlace) (arguments : OrderedMap FieldArgument)
    (expression : Expression) : Except SchemaError Unit :=
  expression.lookups.forM (checkRead place arguments)

end StagedResolver
