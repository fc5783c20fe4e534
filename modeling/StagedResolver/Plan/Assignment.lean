/-
The variables of an operation, with the values that a request gives them.

Every definition is checked on its own, and all faults are reported.  A variable
that has neither a value nor a default is unset.
-/
import StagedResolver.Document.Basic
import StagedResolver.Plan.Coercion

namespace StagedResolver

inductive VariableFault where
  | notScalar (name : String) (type : TypeReference) (position : Position)
  | missing (name : String) (position : Position)
  | invalid (name : String) (error : InputError) (position : Position)
deriving DecidableEq, Inhabited

namespace VariableFault

def message : VariableFault → String
  | .notScalar name type _ =>
      "Variable named '$" ++ name ++
        "' does not have a valid input type. Can only be a scalar. Found: '" ++
        type.display ++ "'."
  | .missing name _ => "Variable $" ++ name ++ " is missing"
  | .invalid name error _ =>
      "Variable $" ++ name ++ " has an invalid value. " ++ error.message

def position : VariableFault → Position
  | .notScalar _ _ position => position
  | .missing _ position => position
  | .invalid _ _ position => position

end VariableFault

namespace VariableDefinition

def given? (definition : VariableDefinition) (provided : Entries Json) :
    Option Literal :=
  match provided.find? definition.name.item with
  | some document => some (.ofJson document)
  | none => definition.fallback

def check (definition : VariableDefinition) (provided : Entries Json) :
    Except VariableFault (Option Literal) :=
  let name := definition.name.item
  let position := definition.name.position
  if (Scalar.ofName? definition.type.innermost).isNone then
    .error (.notScalar name definition.type position)
  else
    match definition.given? provided with
    | none => if definition.type.required then .error (.missing name position) else .ok none
    | some literal =>
        match definition.type.coerce literal with
        | .ok _ => .ok (some literal)
        | .error error => .error (.invalid name error position)

end VariableDefinition

structure Assignment where
  defined : List String
  literals : Entries Literal
deriving Inhabited

namespace Assignment

def faults (definitions : List VariableDefinition) (provided : Entries Json) :
    List VariableFault :=
  definitions.filterMap fun definition =>
    match definition.check provided with
    | .error error => some error
    | .ok _ => none

def literalsOf (definitions : List VariableDefinition) (provided : Entries Json) :
    Entries Literal :=
  definitions.filterMap fun definition =>
    match definition.check provided with
    | .ok (some literal) => some (definition.name.item, literal)
    | _ => none

/-- The variables of an operation in a request, or everything that is wrong. -/
def ofRequest (definitions : List VariableDefinition) (provided : Entries Json) :
    Except (List VariableFault) Assignment :=
  match faults definitions provided with
  | [] =>
      .ok ⟨definitions.map fun definition => definition.name.item,
        Entries.collapse (literalsOf definitions provided)⟩
  | errors => .error errors

def defines (assignment : Assignment) (name : String) : Bool :=
  assignment.defined.contains name

def isUnset (assignment : Assignment) (name : String) : Bool :=
  assignment.defines name && !assignment.literals.has name

/-- What a variable stands for inside a value: its literal, or null when it is
unset.  A variable that is not defined stands for nothing. -/
def meaning? (assignment : Assignment) (name : String) : Option Literal :=
  match assignment.literals.find? name with
  | some literal => some literal
  | none => if assignment.defines name then some .null else none

end Assignment

end StagedResolver
