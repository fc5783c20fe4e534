/-
Plans: what an operation asks of a schema, with nothing left to look up.

Only object types have fields, so that every list of selections is for one
object type and the plan of an operation is a tree.
-/
import StagedResolver.Schema.Resolution
import StagedResolver.Text.Basic

namespace StagedResolver

/-- What becomes of one key of a response object.  The place is that of the
field's name where the field is first selected. -/
inductive PlannedField where
  | typename (key : String) (position : Position)
  | leaf (key : String) (position : Position) (name : String) (arguments : Record)
  | composite (key : String) (position : Position) (name : String)
      (arguments : Record) (object : ObjectIndex) (fields : List PlannedField)
deriving Inhabited

namespace PlannedField

def key : PlannedField → String
  | .typename key _ => key
  | .leaf key _ _ _ => key
  | .composite key _ _ _ _ _ => key

def position : PlannedField → Position
  | .typename _ position => position
  | .leaf _ position _ _ => position
  | .composite _ position _ _ _ _ => position

end PlannedField

/-- What is asked of an object of a type, in the order of the response. -/
structure Plan where
  object : ObjectIndex
  fields : List PlannedField
deriving Inhabited

end StagedResolver
