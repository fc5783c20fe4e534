/-
The arguments and the directives of a selected field, with the variables of the
request put in.
-/
import StagedResolver.Document.Basic
import StagedResolver.Plan.Assignment
import StagedResolver.Plan.Error
import StagedResolver.Schema.Basic

namespace StagedResolver

namespace Assignment

def resolve (assignment : Assignment) (value : Located InputValue) :
    Except PlanError Literal :=
  value.item.substitute fun name =>
    match assignment.meaning? name with
    | some literal => .ok literal
    | none => .error (.unknownVariable name value.position)

/-- Whether a directive lets through what it stands at.  Only two directives ever
keep anything out. -/
def admits (assignment : Assignment) (directive : Directive) : Except PlanError Bool :=
  if directive.name = "skip" ∨ directive.name = "include" then
    match argumentNamed? "if" directive.arguments with
    | none => .error (.missingCondition directive.name directive.position)
    | some condition => do
        match ← assignment.resolve condition with
        | .boolean flag => return flag != (directive.name == "skip")
        | other =>
            throw (.invalidInput (.here (.wrongKind other.word "Boolean!"))
              condition.position)
  else .ok true

/-- Whether directives let through what they stand at: the first that does not
decides. -/
def admitsAll (assignment : Assignment) : List Directive → Except PlanError Bool
  | [] => .ok true
  | directive :: rest => do
      if ← assignment.admits directive then admitsAll assignment rest
      else return false

/-- What is given for an argument.  Giving a variable that is unset is giving
nothing. -/
def given? (assignment : Assignment) (name : String) (arguments : List Argument) :
    Option (Located InputValue) :=
  (argumentNamed? name arguments).filter fun value =>
    match value.item with
    | .variable variableName => !assignment.isUnset variableName
    | _ => true

def argumentValue? (assignment : Assignment) (field : ObjectField) (node : FieldNode)
    (name : String) (argument : FieldArgument) : Except PlanError (Option Value) :=
  match assignment.given? name node.arguments with
  | some value => do
      let literal ← assignment.resolve value
      match argument.type.coerce literal with
      | .ok result => return some result
      | .error fault => throw (.invalidInput fault value.position)
  | none =>
      match argument.fallback with
      | some fallback => .ok (some fallback)
      | none =>
          if argument.type.required then
            .error (.missingArgument field.name name node.name.position)
          else .ok none

def argumentValues (assignment : Assignment) (field : ObjectField) (node : FieldNode) :
    Entries FieldArgument → Except PlanError Record
  | [] => .ok []
  | (name, argument) :: rest => do
      let value ← assignment.argumentValue? field node name argument
      let others ← argumentValues assignment field node rest
      return (value.map fun found => (name, found)).toList ++ others

def argumentRecord (assignment : Assignment) (field : ObjectField) (node : FieldNode) :
    Except PlanError Record :=
  match node.arguments.find? fun given => !field.arguments.has given.name.item with
  | some stray =>
      .error (.unknownArgument field.name stray.name.item stray.name.position)
  | none => assignment.argumentValues field node field.arguments.entries

end Assignment

end StagedResolver
