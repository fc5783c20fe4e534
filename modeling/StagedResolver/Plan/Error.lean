/-
Why selections have no plan.
-/
import StagedResolver.Plan.Coercion
import StagedResolver.Schema.Resolution
import StagedResolver.Text.Basic

namespace StagedResolver

inductive PlanError where
  | unknownType (name : String) (position : Position)
  | scalarCondition (name : String) (position : Position)
  | unknownFragment (name : String) (position : Position)
  | unknownVariable (name : String) (position : Position)
  | missingCondition (directive : String) (position : Position)
  | differentFields (key first other : String) (position : Position)
  | differentArguments (key : String) (position : Position)
  | unknownField (object name : String) (position : Position)
  | unknownArgument (field name : String) (position : Position)
  | missingArgument (field name : String) (position : Position)
  | invalidInput (error : InputError) (position : Position)
  | needlessSelections (field type : String) (position : Position)
  | missingSelections (field type : String) (position : Position)
  | missingObject (object : ObjectIndex)
  | tooDeep
deriving DecidableEq, Inhabited

namespace PlanError

def message : PlanError → String
  | .unknownType name _ => "Unknown type named '" ++ name ++ "'"
  | .scalarCondition name _ =>
      "Type conditions cannot be declared on '" ++ name ++ "', only on objects."
  | .unknownFragment name _ => "Unknown fragment named '" ++ name ++ "'"
  | .unknownVariable name _ => "Unknown variable named '$" ++ name ++ "'"
  | .missingCondition directive _ =>
      "Missing argument named 'if' for directive '" ++ directive ++ "'"
  | .differentFields key first other _ =>
      "Fields '" ++ key ++ "' conflict because '" ++ first ++ "' and '" ++ other ++
        "' are different fields."
  | .differentArguments key _ =>
      "Fields '" ++ key ++ "' conflict because they have differing arguments."
  | .unknownField object name _ =>
      object ++ " does not have a field named '" ++ name ++ "'"
  | .unknownArgument field name _ =>
      "The field \x60" ++ field ++ "\x60 does not have an argument named \x60" ++
        name ++ "\x60"
  | .missingArgument field name _ =>
      "Missing argument named '" ++ name ++ "' for field '" ++ field ++ "'"
  | .invalidInput error _ => error.message
  | .needlessSelections field type _ =>
      "Field '" ++ field ++ "' cannot have a selection set, it's a " ++ type ++
        ". Only objects can."
  | .missingSelections field type _ =>
      "Leaf field '" ++ field ++ "' must be a scalar, but is a " ++ type ++ "."
  | .missingObject _ => "Internal server error"
  | .tooDeep => "Internal server error"

def position? : PlanError → Option Position
  | .unknownType _ position => some position
  | .scalarCondition _ position => some position
  | .unknownFragment _ position => some position
  | .unknownVariable _ position => some position
  | .missingCondition _ position => some position
  | .differentFields _ _ _ position => some position
  | .differentArguments _ position => some position
  | .unknownField _ _ position => some position
  | .unknownArgument _ _ position => some position
  | .missingArgument _ _ position => some position
  | .invalidInput _ position => some position
  | .needlessSelections _ _ position => some position
  | .missingSelections _ _ position => some position
  | .missingObject _ => none
  | .tooDeep => none

def isInternal (error : PlanError) : Bool := error.position?.isNone

end PlanError

end StagedResolver
