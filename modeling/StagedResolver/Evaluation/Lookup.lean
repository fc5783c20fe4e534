/-
What lookups find in a context.

A lookup steps through records by key and through sequences by position, and
enters what is present.  It finds nothing at a missing key, at a position out of
range, and behind null and absent values; only a step into a value of the wrong
kind fails.  What it finds is checked against the type of the lookup.
-/
import StagedResolver.Evaluation.Context
import StagedResolver.Evaluation.Error

namespace StagedResolver

namespace Lookup

def follow (lookup : Lookup) :
    List PathStep → Value → Except EvaluationError (Option Value)
  | [], value => .ok (some value)
  | segment :: rest, value =>
      match value.present? with
      | none => .ok none
      | some .null => .ok none
      | some inner =>
          match segment, inner with
          | .key name, .record entries =>
              match Entries.find? name entries with
              | some held => follow lookup rest held
              | none => .ok none
          | .index position, .sequence items =>
              match items[position]? with
              | some item => follow lookup rest item
              | none => .ok none
          | .key _, found => .error (.stepMismatch lookup .record found.kind)
          | .index _, found => .error (.stepMismatch lookup .sequence found.kind)

def findIn (lookup : Lookup) (value : Value) : Except EvaluationError (Option Value) :=
  lookup.follow lookup.segments value

/-- Follows the lookup down from a record of named values.  Its first segment has
to be a key; a lookup without segments finds nothing. -/
def findInRecord (lookup : Lookup) (record : Record) :
    Except EvaluationError (Option Value) :=
  match lookup.segments with
  | [] => .ok none
  | .key name :: rest =>
      match record.find? name with
      | some value => lookup.follow rest value
      | none => .ok none
  | .index _ :: _ => .error (.stepMismatch lookup .sequence .record)

/-- The value found, as a value of the type of the lookup: wrapped when the type is
optional and the value is not, and without present layers when the type is neither
optional nor open. -/
def fit (lookup : Lookup) (value : Value) : Value :=
  match lookup.expected with
  | .any => value
  | .optional _ =>
      match value with
      | .absent => value
      | .present _ => value
      | other => .present other
  | _ => (value.present?).getD value

def check (lookup : Lookup) (found : Option Value) : Except EvaluationError Value :=
  let nothing : Except EvaluationError Value :=
    if lookup.expected.isOptional then .ok .absent else .error (.missingPath lookup)
  match found with
  | none => nothing
  | some value =>
      if value.isNothing then nothing
      else if lookup.expected.admits value then .ok (lookup.fit value)
      else .error (.pathMismatch lookup ((value.present?).getD value).kind)

/-- What the lookup finds in a context.  `elements` are bound inside those of the
context, innermost first. -/
def find (lookup : Lookup) (context : Context) (elements : List Value) :
    Except EvaluationError (Option Value) :=
  match lookup.root with
  | .current => lookup.findIn context.current
  | .ancestor depth =>
      match context.ancestor? depth with
      | some ancestor => lookup.findIn ancestor.current
      | none => .ok none
  | .arguments => lookup.findInRecord context.arguments
  | .environment => lookup.findInRecord context.environment
  | .element index =>
      match (elements ++ context.elements)[index]? with
      | some element => lookup.findIn element
      | none => .error (.unboundElement index)

def resolve (lookup : Lookup) (context : Context) (elements : List Value) :
    Except EvaluationError Value := do
  let found ← lookup.find context elements
  lookup.check found

end Lookup

end StagedResolver
