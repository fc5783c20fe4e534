/-
Execution of plans.

The fields of an object are resolved one after the other in its context, each
with its own arguments.  An object that a field produces has a context of its
own, whose parent is the context that the field was resolved in.
-/
import StagedResolver.Execution.Completion
import StagedResolver.Plan.Basic
import StagedResolver.Schema.Basic

namespace StagedResolver

def ObjectField.resolve (field : ObjectField) (level : ReportLevel)
    (context : Context) (arguments : Record) (place : FieldPlace)
    (object : Value → Completion Value) : Completion Value :=
  let evaluated := field.resolution.source.evaluate level (context.withArguments arguments)
  Completion.after evaluated.reports <|
    match evaluated.result with
    | .ok value => place.complete object field.resolution.shape value
    | .error error => place.fail field.resolution.shape.required (.unresolved error)

namespace Schema

mutual

def resolveField (schema : Schema) (level : ReportLevel)
    (object : ObjectType) (context : Context) : PlannedField → Completion Value
  | .typename _ _ => .ok (.string object.name)
  | .leaf _ position name arguments =>
      let place : FieldPlace := ⟨object.name, name, position⟩
      match object.fields.find? name with
      | none => place.fail false .broken
      | some field =>
          field.resolve level context arguments place fun _ => .rise place .broken
  | .composite _ position name arguments id fields =>
      let place : FieldPlace := ⟨object.name, name, position⟩
      match object.fields.find? name with
      | none => place.fail false .broken
      | some field =>
          field.resolve level context arguments place fun value =>
            match schema.object? id with
            | none => .rise place .broken
            | some inner =>
                (resolveFields schema level inner (context.child value) fields).map
                  Value.record

/-- The keys of an object one after the other.  A null that goes up ends the
object. -/
def resolveFields (schema : Schema) (level : ReportLevel)
    (object : ObjectType) (context : Context) :
    List PlannedField → Completion Record
  | [] => .ok []
  | field :: rest =>
      ((resolveField schema level object context field).under
        (.key field.key)).andThen fun value =>
          (resolveFields schema level object context rest).map fun others =>
            (field.key, value) :: others

end

/-- The data of a plan, null when a null went up to the root. -/
def execute (schema : Schema) (level : ReportLevel) (plan : Plan)
    (context : Context) : Completion Value :=
  match schema.object? plan.object with
  | none => ⟨some .null, [], []⟩
  | some object =>
      ((schema.resolveFields level object context plan.fields).map
        Value.record).settle false

end Schema

end StagedResolver
