/-
Completion of what a resolver found to the shape of its field.

What is missing where it is required is an error of the field, and the null goes
up to the nearest value that may be null.  Faults are seen from the field: their
paths begin below it.
-/
import StagedResolver.Execution.FieldError
import StagedResolver.Schema.Resolution

namespace StagedResolver

/-- What became of a part of a response.  There is no result when a null goes
further up. -/
structure Completion (α : Type) where
  result : Option α
  errors : List FieldError
  reports : List Report
deriving Inhabited

namespace Completion

variable {α β : Type}

def ok (result : α) : Completion α := ⟨some result, [], []⟩

def rise (place : FieldPlace) (fault : FieldFault) : Completion α :=
  ⟨none, [⟨[], place, fault⟩], []⟩

def andThen (first : Completion α) (next : α → Completion β) : Completion β :=
  match first.result with
  | some found =>
      let second := next found
      ⟨second.result, first.errors ++ second.errors, first.reports ++ second.reports⟩
  | none => ⟨none, first.errors, first.reports⟩

def map (change : α → β) (completion : Completion α) : Completion β :=
  ⟨completion.result.map change, completion.errors, completion.reports⟩

def under (segment : PathStep) (completion : Completion α) : Completion α :=
  { completion with errors := completion.errors.map (FieldError.under segment) }

def after (reports : List Report) (completion : Completion α) : Completion α :=
  { completion with reports := reports ++ completion.reports }

/-- Stops a null that goes up, unless a value is required here. -/
def settle (required : Bool) (completion : Completion Value) : Completion Value :=
  match completion.result with
  | some _ => completion
  | none => if required then completion else { completion with result := some .null }

theorem settle_of_some {completion : Completion Value} {required : Bool} {value : Value}
    (found : completion.result = some value) : completion.settle required = completion := by
  simp only [settle, found]

theorem settle_true (completion : Completion Value) : completion.settle true = completion := by
  obtain ⟨result, errors, reports⟩ := completion
  cases result with
  | none => rfl
  | some value => rfl

theorem settle_false (completion : Completion Value) : completion.settle false =
    { completion with result := some (completion.result.getD .null) } := by
  obtain ⟨result, errors, reports⟩ := completion
  cases result with
  | none => rfl
  | some value => rfl

theorem errors_settle (completion : Completion Value) (required : Bool) :
    (completion.settle required).errors = completion.errors := by
  cases required with
  | true => rw [settle_true]
  | false => rw [settle_false]

end Completion

namespace FieldPlace

def fail (place : FieldPlace) (required : Bool) (fault : FieldFault) : Completion Value :=
  (Completion.rise place fault).settle required

def whenPresent (place : FieldPlace) (required : Bool) (value : Value)
    (next : Value → Completion Value) : Completion Value :=
  match value.stripped with
  | .null => if required then .rise place .nothingFound else .ok .null
  | .absent => if required then .rise place .nothingFound else .ok .absent
  | found => next found

def completeScalar (place : FieldPlace) (scalar : Scalar) (required : Bool)
    (value : Value) : Completion Value :=
  match scalar.written? value with
  | some written => .ok written
  | none => place.fail required (.notOfScalar value.kind scalar)

def completeObject (place : FieldPlace) (object : Value → Completion Value)
    (required : Bool) (value : Value) : Completion Value :=
  match value with
  | .sequence _ => place.fail required .listForObject
  | other => (object other).settle required

/-- Completes items one after the other, counting from `index`.  A null that goes
up ends the list. -/
def completeItems (complete : Value → Completion Value) (index : Nat) :
    List Value → Completion (List Value)
  | [] => .ok []
  | item :: rest =>
      ((complete item).under (.index index)).andThen fun first =>
        (completeItems complete (index + 1) rest).map fun others => first :: others

def complete (place : FieldPlace) (object : Value → Completion Value) :
    Shape → Value → Completion Value
  | .scalar leaf required, value =>
      place.whenPresent required value (place.completeScalar leaf required)
  | .object _ required, value =>
      place.whenPresent required value (place.completeObject object required)
  | .list item required, value =>
      place.whenPresent required value fun found =>
        match found with
        | .sequence items =>
            ((completeItems (complete place object item) 0 items).map
              Value.sequence).settle required
        | other => place.fail required (.notList other.kind)

end FieldPlace

end StagedResolver
